import EventSaver.BackfillLoop
import EventSaver.IngestPlan

/-!
# The two backfill paths

What one cycle of the periodic backfill does to every bookings row when the resolver answers by
a fixed function, when such a cycle goes idle, and on which rows it agrees with the backfill of a
`user.synced` event.
-/

namespace EventSaver
open JsonData TableData EffectProgram

/-- A resolver that always answers, by a fixed function. -/
def answering (resolve : String → RecipientRole → Option Uuid) :
    Nat → String → RecipientRole → Except Exc Resolution :=
  fun _ email role => .ok (.answered (resolve email role))

section Cycle

variable (ext : Externals) (resolve : String → RecipientRole → Option Uuid)

/-- A cycle whose resolver always answers ends normally and has visited the slots of its
window. -/
theorem runOnce_answering (batchSize : Nat) (db : Db) :
    ∃ summary, runOnce ext (answering resolve) batchSize db =
      (.ok summary, visitAll ext resolve (cycleSlots batchSize db) db) := by
  obtain ⟨calls, tally, aborted, db', done, rest, hrun, _, hslots, _, hend⟩ :=
    runOnce_responding ext (fun _ email role => .answered (resolve email role)) batchSize db
  have hanswered {key : String × RecipientRole} {resolution : Resolution}
      (hmem : (key, resolution) ∈ requests calls) :
      resolution = .answered (resolve key.1 key.2) := by
    obtain ⟨i, hi⟩ := List.mem_iff_getElem?.mp hmem
    exact (hend.answers i key resolution hi).symm
  have hrest : rest = [] := by
    cases rest with
    | nil => rfl
    | cons slot rest =>
      obtain ⟨email, _, hmem⟩ := hend.stopped slot rfl
      cases hanswered hmem
  have hfound : ∀ slot ∈ done,
      foundUserId ext (obtained (requests calls)) db.tables.events slot.1.bookingUid slot.2 =
        foundUserId ext resolve db.tables.events slot.1.bookingUid slot.2 := by
    intro slot hslot
    unfold foundUserId
    cases hemail : latestEmail ext db.tables.events slot.1.bookingUid slot.2 with
    | none => rfl
    | some email =>
      obtain ⟨userId, hmem⟩ := hend.completed slot hslot email hemail
      rw [Option.bind_some, Option.bind_some, obtained_of_mem hend.once hmem]
      exact Resolution.answered.inj (hanswered hmem)
  rw [hrest, List.append_nil] at hslots
  rw [hend.committed, visitAll_congr hfound, ← hslots] at hrun
  exact ⟨_, hrun⟩

end Cycle

section Rows

variable {ext : Externals} {resolve : String → RecipientRole → Option Uuid}
  {events : List EventRow}

lemma visitRow_id (b : BookingRow) (slot : Candidate × RecipientRole) :
    (visitRow ext resolve events b slot).id = b.id := by
  unfold visitRow
  split
  · split <;> rfl
  · rfl

lemma Booking.userId_setUserId (b : Booking) (role role' : RecipientRole) (u : Uuid) :
    (b.setUserId role u).userId role' = if role = role' then some u else b.userId role' := by
  cases role <;> cases role' <;> rfl

/-- A visit fills the slot it is made to, when that is empty and an id is found. -/
lemma visitRow_userId (b : BookingRow) (slot : Candidate × RecipientRole) (role : RecipientRole) :
    (visitRow ext resolve events b slot).userId role =
      (b.userId role).or
        (if slot.1.id = b.id ∧ slot.2 = role then
          foundUserId ext resolve events slot.1.bookingUid role
        else none) := by
  by_cases hslot : slot.1.id = b.id ∧ slot.2 = role
  · obtain ⟨hid, rfl⟩ := hslot
    rw [if_pos ⟨hid, rfl⟩, visitRow]
    cases hfound : foundUserId ext resolve events slot.1.bookingUid slot.2 with
    | none => rw [Option.or_none]
    | some userId =>
      cases hb : b.userId slot.2 with
      | none =>
        have hset := b.toBooking.userId_setUserId slot.2 slot.2 userId
        rw [if_pos rfl] at hset
        simp only [hid, BEq.rfl, Bool.and_self, if_true]
        exact hset
      | some u => simp [hb]
  · rw [if_neg hslot, Option.or_none, visitRow]
    cases hfound : foundUserId ext resolve events slot.1.bookingUid slot.2 with
    | none => rfl
    | some userId =>
      dsimp only
      split
      · rename_i hguard
        have hid : b.id = slot.1.id := by
          simp only [Bool.and_eq_true, beq_iff_eq] at hguard
          exact hguard.1
        have hset := b.toBooking.userId_setUserId slot.2 role userId
        rw [if_neg fun h => hslot ⟨hid.symm, h⟩] at hset
        exact hset
      · rfl

/-- The first id the visits of a list of slots find for a role of a row. -/
lemma foldl_visitRow_userId (slots : List (Candidate × RecipientRole)) (b : BookingRow)
    (role : RecipientRole) :
    (slots.foldl (visitRow ext resolve events) b).userId role =
      (b.userId role).or (slots.findSome? fun slot =>
        if slot.1.id = b.id ∧ slot.2 = role then
          foundUserId ext resolve events slot.1.bookingUid role
        else none) := by
  induction slots generalizing b with
  | nil => simp
  | cons slot rest ih =>
    rw [List.foldl_cons, ih, visitRow_userId, visitRow_id, Option.or_assoc, List.findSome?_cons]
    cases (if slot.1.id = b.id ∧ slot.2 = role then
      foundUserId ext resolve events slot.1.bookingUid role else none) <;> rfl

lemma foldl_visitRow_id (slots : List (Candidate × RecipientRole)) (b : BookingRow) :
    (slots.foldl (visitRow ext resolve events) b).id = b.id := by
  induction slots generalizing b with
  | nil => rfl
  | cons slot rest ih => rw [List.foldl_cons, ih, visitRow_id]

/-- Visits that find nothing leave a row as it is. -/
lemma foldl_visitRow_eq {slots : List (Candidate × RecipientRole)}
    (h : ∀ slot ∈ slots, foundUserId ext resolve events slot.1.bookingUid slot.2 = none)
    (b : BookingRow) : slots.foldl (visitRow ext resolve events) b = b := by
  induction slots with
  | nil => rfl
  | cons slot rest ih =>
    rw [List.forall_mem_cons] at h
    have hslot : visitRow ext resolve events b slot = b := by
      rw [visitRow, h.1]
    rw [List.foldl_cons, hslot, ih h.2]

end Rows

section Idle

variable (ext : Externals) (resolve : String → RecipientRole → Option Uuid)

/-- A bookings row with an empty slot whose latest e-mail the resolver knows. -/
def Db.Fillable (db : Db) (b : BookingRow) : Prop :=
  ∃ role, b.userId role = none ∧ ∃ email userId,
    latestEmail ext db.tables.events b.bookingUid role = some email ∧
      resolve email role = some userId

variable {ext resolve} {db : Db} {batchSize : Nat} {b : BookingRow}

lemma mem_cycleSlots {slot : Candidate × RecipientRole} :
    slot ∈ cycleSlots batchSize db ↔
      ∃ b ∈ selectCandidates db.tables.bookings batchSize,
        b.candidate = slot.1 ∧ b.userId slot.2 = none := by
  have hroles (b : BookingRow) (role : RecipientRole) :
      role ∈ UserIdBackfillService.missingRoles b.candidate ↔ b.userId role = none := by
    cases role <;> simp [UserIdBackfillService.missingRoles, BookingRow.candidate, Candidate.userId,
      Booking.userId, List.mem_filter]
  obtain ⟨row, role⟩ := slot
  simp only [cycleSlots, UserIdBackfillService.slots, List.mem_flatMap, List.mem_map]
  constructor
  · rintro ⟨_, ⟨b, hb, rfl⟩, role', hrole, heq⟩
    obtain ⟨rfl, rfl⟩ := Prod.mk.inj heq
    exact ⟨b, hb, rfl, (hroles b role').mp hrole⟩
  · rintro ⟨b, hb, rfl, hrole⟩
    exact ⟨_, ⟨b, hb, rfl⟩, role, (hroles b role).mpr hrole, rfl⟩

lemma foundUserId_eq_some {role : RecipientRole} {userId : Uuid} {events : List EventRow}
    {bookingUid : String} :
    foundUserId ext resolve events bookingUid role = some userId ↔
      ∃ email, latestEmail ext events bookingUid role = some email ∧
        resolve email role = some userId :=
  Option.bind_eq_some_iff

lemma mem_of_mem_selectCandidates {bookings : List BookingRow}
    (h : b ∈ selectCandidates bookings batchSize) : b ∈ bookings := by
  have hsorted := List.mem_of_mem_take h
  rw [List.mem_insertionSort] at hsorted
  exact (List.mem_filter.mp hsorted).1

lemma nodup_incomplete (hids : (db.tables.bookings.map (·.id)).Nodup) :
    ((db.tables.bookings.filter fun b => b.incomplete).map (·.id)).Nodup :=
  hids.sublist (List.filter_sublist.map _)

/-- The window of a cycle: the incomplete bookings with few incomplete bookings before them. -/
lemma mem_selectCandidates (hids : (db.tables.bookings.map (·.id)).Nodup) :
    b ∈ selectCandidates db.tables.bookings batchSize ↔
      b ∈ db.tables.bookings ∧ b.incomplete = true ∧
        db.tables.bookings.countP (fun c => c.incomplete && decide (c.id < b.id)) < batchSize := by
  have hcount : (db.tables.bookings.filter fun c => c.incomplete).countP
      (fun c => decide (c.id < b.id)) =
        db.tables.bookings.countP fun c => c.incomplete && decide (c.id < b.id) := by
    rw [List.countP_filter]
    congr 1
    funext c
    exact Bool.and_comm _ _
  rw [selectCandidates, mem_take_insertionSort (nodup_incomplete hids), List.mem_filter, hcount,
    and_assoc]

lemma Db.Fillable.incomplete (h : db.Fillable ext resolve b) : b.incomplete = true := by
  obtain ⟨role, hrole, _⟩ := h
  rw [Booking.incomplete]
  cases role with
  | organizer =>
    have hnone : b.organizerUserId = none := hrole
    simp [hnone]
  | client =>
    have hnone : b.clientUserId = none := hrole
    simp [hnone]

/-- A cycle changes no row exactly when no row of its window can be filled. -/
lemma visitAll_idle :
    (visitAll ext resolve (cycleSlots batchSize db) db).tables.bookings = db.tables.bookings ↔
      ∀ b ∈ selectCandidates db.tables.bookings batchSize, ¬ db.Fillable ext resolve b := by
  constructor
  · rintro hidle b hb ⟨role, hnull, email, userId, hemail, huser⟩
    have hmem : b ∈ db.tables.bookings := mem_of_mem_selectCandidates hb
    have hrow : (cycleSlots batchSize db).foldl (visitRow ext resolve db.tables.events) b = b := by
      rw [visitAll] at hidle
      exact (List.map_inj_left.mp (hidle.trans (List.map_id' _).symm)) b hmem
    have huserId := @foldl_visitRow_userId ext resolve db.tables.events
      (cycleSlots batchSize db) b role
    rw [hrow, hnull, Option.none_or, eq_comm, List.findSome?_eq_none_iff] at huserId
    have hslot : (b.candidate, role) ∈ cycleSlots batchSize db :=
      mem_cycleSlots.mpr ⟨b, hb, rfl, hnull⟩
    have hnone := huserId _ hslot
    rw [if_pos ⟨rfl, rfl⟩] at hnone
    have hsome := foundUserId_eq_some.mpr ⟨email, hemail, huser⟩
    exact Option.some_ne_none userId (hsome.symm.trans hnone)
  · intro hnone
    have hslots : ∀ slot ∈ cycleSlots batchSize db,
        foundUserId ext resolve db.tables.events slot.1.bookingUid slot.2 = none := by
      intro slot hslot
      obtain ⟨b, hb, hcandidate, hnull⟩ := mem_cycleSlots.mp hslot
      rw [Option.eq_none_iff_forall_ne_some]
      intro userId hfound
      rw [← hcandidate] at hfound
      obtain ⟨email, hemail, huser⟩ := foundUserId_eq_some.mp hfound
      exact hnone b hb ⟨slot.2, hnull, email, userId, hemail, huser⟩
    have hrows : (visitAll ext resolve (cycleSlots batchSize db) db).tables.bookings =
        db.tables.bookings.map fun b => b :=
      List.map_congr_left fun b _ => foldl_visitRow_eq hslots b
    rw [hrows, List.map_id']

variable (ext resolve batchSize) in
/-- A cycle that changes nothing has nothing left to fill, exactly when a row that can be filled
is not kept out of every window by as many incomplete rows with smaller ids. -/
theorem idle_cycle_iff (hids : (db.tables.bookings.map (·.id)).Nodup) :
    ((runOnce ext (answering resolve) batchSize db).2.tables.bookings = db.tables.bookings →
        ∀ b ∈ db.tables.bookings, ¬ db.Fillable ext resolve b) ↔
      ((∃ b ∈ db.tables.bookings, db.Fillable ext resolve b) →
        ∃ b ∈ db.tables.bookings, db.Fillable ext resolve b ∧
          db.tables.bookings.countP (fun c => c.incomplete && decide (c.id < b.id)) < batchSize) := by
  obtain ⟨summary, hcycle⟩ := runOnce_answering ext resolve batchSize db
  rw [hcycle, visitAll_idle]
  constructor
  · intro h hfillable
    by_contra hhidden
    obtain ⟨b, hb, hfill⟩ := hfillable
    refine h (fun c hc hfill => hhidden ?_) b hb hfill
    obtain ⟨hmem, _, hcount⟩ := (mem_selectCandidates hids).mp hc
    exact ⟨c, hmem, hfill, hcount⟩
  · intro h hidle b hb hfill
    obtain ⟨c, hc, hfill, hcount⟩ := h ⟨b, hb, hfill⟩
    exact hidle c ((mem_selectCandidates hids).mpr ⟨hc, hfill.incomplete, hcount⟩) hfill

end Idle

/-- Two bookings, of which only the second lists an e-mail. -/
def twoBookings : Db :=
  let created (uid : String) (participants : List Json) : Message :=
    .sample BOOKING_LIFECYCLE_SAVER_QUEUE uid uid .bookingCreated 1 (listing participants)
  let db := (saveEvent .sample 0 (created "x" []) .empty).2
  (saveEvent .sample 0 (created "y" [participant .organizer "a@example.org" .null]) db).2

/-- The second of the two bookings. -/
def secondBooking : BookingRow where
  bookingUid := "y"
  firstSeenAt := 1
  lastSeenAt := 1
  startTime := none
  endTime := none
  currentStatus := some "created"
  organizerUserId := none
  clientUserId := none
  id := 1

/-- A window of two rows gets past the first booking. -/
theorem idle_cycle_iff_twoBookings :
    (runOnce .sample (answering fun _ _ => some ⟨10⟩) 2 twoBookings).2.tables.bookings ≠
        twoBookings.tables.bookings ∧
      twoBookings.Fillable .sample (fun _ _ => some ⟨10⟩) secondBooking := by
  have hmem : secondBooking ∈ twoBookings.tables.bookings := by decide
  have hfill : twoBookings.Fillable .sample (fun _ _ => some ⟨10⟩) secondBooking :=
    ⟨.organizer, rfl, "a@example.org", ⟨10⟩, rfl, rfl⟩
  have hdone := (idle_cycle_iff .sample (fun _ _ => some ⟨10⟩) 2 (by decide)).mpr fun _ =>
    ⟨secondBooking, hmem, hfill, by decide⟩
  exact ⟨fun hidle => hdone hidle secondBooking hmem hfill, hfill⟩

/-- A window of one row never gets past the first booking. -/
theorem starved_booking :
    ¬ ((runOnce .sample (answering fun _ _ => some ⟨10⟩) 1 twoBookings).2.tables.bookings =
          twoBookings.tables.bookings →
        ∀ b ∈ twoBookings.tables.bookings,
          ¬ twoBookings.Fillable .sample (fun _ _ => some ⟨10⟩) b) := by
  intro h
  have hmem : secondBooking ∈ twoBookings.tables.bookings := by decide
  exact h rfl secondBooking hmem ⟨.organizer, rfl, "a@example.org", ⟨10⟩, rfl, rfl⟩

section Paths

variable {ext : Externals} {db : Db} {b : BookingRow} {role : RecipientRole} {email : String}
  {u : Uuid}

variable (ext) in
/-- A resolver that knows one user under one role, by the e-mail up to letter case. -/
def resolvesOnly (role : RecipientRole) (email : String) (u : Uuid) :
    String → RecipientRole → Option Uuid :=
  fun email' role' => if role' = role ∧ ext.lower email' = ext.lower email then some u else none

/-- The user id in the row of a given id. -/
def Db.userIdAt (db : Db) (id : Nat) (role : RecipientRole) : Option Uuid :=
  (db.tables.bookings.find? fun b => b.id == id).bind fun b => b.userId role

/-- The row of an id after an update of every row that keeps its id. -/
lemma userIdAt_map (db' : Db) (f : BookingRow → BookingRow) (role : RecipientRole)
    (hids : (db.tables.bookings.map (·.id)).Nodup) (hb : b ∈ db.tables.bookings)
    (hf : ∀ a, (f a).id = a.id) (hdb' : db'.tables.bookings = db.tables.bookings.map f) :
    db'.userIdAt b.id role = (f b).userId role := by
  have hids' : (db'.tables.bookings.map (·.id)).Nodup := by
    have hcomp : (BookingRow.id ∘ f) = BookingRow.id := funext hf
    rwa [hdb', List.map_map, hcomp]
  have hmem : f b ∈ db'.tables.bookings := by
    rw [hdb']
    exact List.mem_map_of_mem hb
  have hfind := find?_eq_some_of_mem hids' hmem
  rw [hf b] at hfind
  rw [Db.userIdAt, hfind, Option.bind_some]

/-- The e-mail has been stored for the role in an event as late as every other e-mail of the
role. -/
def HeldLast (ext : Externals) (events : List EventRow) (bookingUid : String) (role : RecipientRole)
    (email : String) : Prop :=
  ∃ held ∈ listedEmails ext events bookingUid role, ext.lower held.2 = ext.lower email ∧
    ∀ other ∈ listedEmails ext events bookingUid role, held.1 ≤ other.1 →
      ext.lower other.2 = ext.lower email

lemma heldLast_iff_latest {events : List EventRow} {bookingUid : String}
    (hties : ∀ x ∈ listedEmails ext events bookingUid role,
      ∀ y ∈ listedEmails ext events bookingUid role, x.1 = y.1 → x.2 = y.2) :
    HeldLast ext events bookingUid role email ↔
      ∃ latest, latestEmail ext events bookingUid role = some latest ∧
        ext.lower latest = ext.lower email := by
  unfold latestEmail
  cases hnewest : newest Prod.fst (listedEmails ext events bookingUid role) with
  | none =>
    refine iff_of_false ?_ (by rintro ⟨_, h, _⟩; cases h)
    rintro ⟨held, hheld, _⟩
    rw [newest_eq_none.mp hnewest] at hheld
    cases hheld
  | some latest =>
    obtain ⟨hmem, hle⟩ := newest_spec hnewest
    constructor
    · rintro ⟨held, hheld, _, hothers⟩
      exact ⟨latest.2, rfl, hothers latest hmem (hle held hheld)⟩
    · rintro ⟨_, heq, hlower⟩
      obtain rfl := Option.some.inj heq
      refine ⟨latest, hmem, hlower, fun other hother hlater => ?_⟩
      have htime : other.1 = latest.1 := le_antisymm (hle other hother) hlater
      rw [hties other hother latest hmem htime, hlower]

/-- Every e-mail the cycle may look up is one the `user.synced` path searches for. -/
lemma HeldLast.mentioned {events : List EventRow} {bookingUid : String}
    (h : HeldLast ext events bookingUid role email) :
    ∃ e ∈ events, e.Mentions ext bookingUid role email := by
  obtain ⟨⟨time, held⟩, hheld, hlower, _⟩ := h
  obtain ⟨e, he, _, hlists⟩ := mem_listedEmails.mp hheld
  exact ⟨e, he, hlists.mentions hlower⟩

lemma roleColumn_value (role : RecipientRole) :
    BookingRepository.roleColumn (.str role.value) = .ok (some role) := by
  cases role <;> rfl

/-- The processing of an announcement is the backfill it asks for. -/
lemma run_process_synced (queueName : String) {event : ParsedEvent}
    (htype : event.eventType = EventType.userSynced.value)
    (huser : IngestEvent.syncedUser ext event.payload = .ok (.str email, .str role.value, u)) :
    (IngestEvent.process ext queueName event).run (SqlExecutor.execute ext) db =
      (.ok (), applyBackfill ext (some (role, some email, u)) db) := by
  have hrequest : backfillRequest ext event.payload = .ok (some (role, some email, u)) := by
    rw [backfillRequest, huser, ok_bind]
    dsimp only
    rw [roleColumn_value]
    rfl
  have hrun := realises_process ext queueName event db
  rw [processEffect, if_pos htype, hrequest] at hrun
  exact hrun

/-- An announcement reaches a row with an empty column when a stored event lists its e-mail. -/
lemma userIdAt_synced (hids : (db.tables.bookings.map (·.id)).Nodup) (hb : b ∈ db.tables.bookings)
    (hnull : b.userId role = none) :
    (applyBackfill ext (some (role, some email, u)) db).userIdAt b.id role = some u ↔
      ∃ e ∈ db.tables.events, e.Mentions ext b.bookingUid role email := by
  rw [← participantListed_iff]
  have hrow := userIdAt_map (applyBackfill ext (some (role, some email, u)) db)
    (fun a =>
      if a.userId role == none && participantListed ext db.tables.events a.bookingUid role email
      then a.update (·.setUserId role u) else a) role hids hb (fun a => by split <;> rfl) rfl
  rw [hrow, hnull]
  by_cases hlisted : participantListed ext db.tables.events b.bookingUid role email = true
  · have hset := b.toBooking.userId_setUserId role role u
    rw [if_pos rfl] at hset
    simp only [hlisted, BEq.rfl, Bool.and_self, if_true]
    exact iff_of_true hset trivial
  · simp [hlisted, hnull]

/-- Visits to slots of a window write into an empty column what is found for it, if the column is
among the slots. -/
lemma foldl_visitRow_eq_some_iff {resolve : String → RecipientRole → Option Uuid} {batchSize : Nat}
    {slots : List (Candidate × RecipientRole)}
    (hslots : ∀ slot ∈ slots, slot ∈ cycleSlots batchSize db)
    (hids : (db.tables.bookings.map (·.id)).Nodup) (hb : b ∈ db.tables.bookings)
    (hnull : b.userId role = none) :
    (slots.foldl (visitRow ext resolve db.tables.events) b).userId role = some u ↔
      (b.candidate, role) ∈ slots ∧
        foundUserId ext resolve db.tables.events b.bookingUid role = some u := by
  have hrow (slot : Candidate × RecipientRole) (hslot : slot ∈ slots)
      (hmatch : slot.1.id = b.id ∧ slot.2 = role) : slot = (b.candidate, role) := by
    obtain ⟨c, hc, hcandidate, _⟩ := mem_cycleSlots.mp (hslots slot hslot)
    have hid : c.id = b.id := by
      rw [← hmatch.1, ← hcandidate]
      rfl
    have hcb := List.inj_on_of_nodup_map hids (mem_of_mem_selectCandidates hc) hb hid
    rw [← hcb, hcandidate, ← hmatch.2]
  have hfirst {userId : Uuid} (h : slots.findSome? (fun slot =>
      if slot.1.id = b.id ∧ slot.2 = role then
        foundUserId ext resolve db.tables.events slot.1.bookingUid role
      else none) = some userId) :
      (b.candidate, role) ∈ slots ∧
        foundUserId ext resolve db.tables.events b.bookingUid role = some userId := by
    obtain ⟨slot, hslot, hfound⟩ := List.exists_of_findSome?_eq_some h
    by_cases hmatch : slot.1.id = b.id ∧ slot.2 = role
    · rw [if_pos hmatch] at hfound
      have hsame := hrow slot hslot hmatch
      rw [hsame] at hslot hfound
      exact ⟨hslot, hfound⟩
    · rw [if_neg hmatch] at hfound
      cases hfound
  rw [foldl_visitRow_userId, hnull, Option.none_or]
  refine ⟨hfirst, ?_⟩
  rintro ⟨hslot, hfound⟩
  cases hsome : slots.findSome? (fun slot =>
      if slot.1.id = b.id ∧ slot.2 = role then
        foundUserId ext resolve db.tables.events slot.1.bookingUid role
      else none) with
  | none =>
    have hnone := List.findSome?_eq_none_iff.mp hsome _ hslot
    rw [if_pos ⟨rfl, rfl⟩] at hnone
    exact hnone.symm.trans hfound
  | some userId => exact (hfirst hsome).2.symm.trans hfound

/-- A cycle writes the id it finds into an empty column of a row it scans. -/
lemma userIdAt_cycle {resolve : String → RecipientRole → Option Uuid} {batchSize : Nat}
    (hids : (db.tables.bookings.map (·.id)).Nodup)
    (hscan : b ∈ selectCandidates db.tables.bookings batchSize) (hnull : b.userId role = none) :
    (runOnce ext (answering resolve) batchSize db).2.userIdAt b.id role =
      foundUserId ext resolve db.tables.events b.bookingUid role := by
  obtain ⟨summary, hcycle⟩ := runOnce_answering ext resolve batchSize db
  have hmem := mem_of_mem_selectCandidates hscan
  have hrow := userIdAt_map (visitAll ext resolve (cycleSlots batchSize db) db)
    (fun a => (cycleSlots batchSize db).foldl (visitRow ext resolve db.tables.events) a) role
    hids hmem (fun a => foldl_visitRow_id (cycleSlots batchSize db) a) rfl
  have hslot : (b.candidate, role) ∈ cycleSlots batchSize db :=
    mem_cycleSlots.mpr ⟨b, hscan, rfl, hnull⟩
  rw [hcycle, hrow]
  ext userId
  rw [foldl_visitRow_eq_some_iff (fun _ h => h) hids hmem hnull]
  exact and_iff_right hslot

/-- The two paths agree on an empty column they both look at, exactly when a stored event lists
the e-mail for the role only if it is the last one stored for it. -/
theorem backfill_paths_agree_iff {queueName : String} {batchSize : Nat} {event : ParsedEvent}
    (hids : (db.tables.bookings.map (·.id)).Nodup)
    (hscan : b ∈ selectCandidates db.tables.bookings batchSize) (hnull : b.userId role = none)
    (htype : event.eventType = EventType.userSynced.value)
    (huser : IngestEvent.syncedUser ext event.payload = .ok (.str email, .str role.value, u))
    (hties : ∀ x ∈ listedEmails ext db.tables.events b.bookingUid role,
      ∀ y ∈ listedEmails ext db.tables.events b.bookingUid role, x.1 = y.1 → x.2 = y.2) :
    (((IngestEvent.process ext queueName event).run (SqlExecutor.execute ext) db).2.userIdAt
          b.id role = some u ↔
        (runOnce ext (answering (resolvesOnly ext role email u)) batchSize db).2.userIdAt
          b.id role = some u) ↔
      ((∃ e ∈ db.tables.events, e.Mentions ext b.bookingUid role email) →
        HeldLast ext db.tables.events b.bookingUid role email) := by
  have hfound : foundUserId ext (resolvesOnly ext role email u) db.tables.events b.bookingUid role =
      some u ↔ HeldLast ext db.tables.events b.bookingUid role email := by
    rw [heldLast_iff_latest hties, foundUserId_eq_some]
    simp [resolvesOnly]
  rw [run_process_synced queueName htype huser,
    userIdAt_synced hids (mem_of_mem_selectCandidates hscan) hnull,
    userIdAt_cycle hids hscan hnull, hfound]
  exact ⟨Iff.mp, fun h => ⟨h, HeldLast.mentioned⟩⟩

end Paths

/-- A booking whose organizer has been replaced, neither of the two having an id yet. -/
def reassignedBooking : Db :=
  let event (eventId email : String) (eventType : EventType) (time : Timestamp) : Message :=
    .sample BOOKING_LIFECYCLE_SAVER_QUEUE eventId "y" eventType time
      (listing [participant .organizer email .null])
  let db := (saveEvent .sample 0 (event "1" "a@example.org" .bookingCreated 1) .empty).2
  (saveEvent .sample 0 (event "2" "b@example.org" .bookingReassigned 2) db).2

def reassignedRow : BookingRow where
  bookingUid := "y"
  firstSeenAt := 1
  lastSeenAt := 2
  startTime := none
  endTime := none
  currentStatus := some "created"
  organizerUserId := none
  clientUserId := none
  id := 0

/-- The announcement of an organizer. -/
def announced (email : String) : ParsedEvent where
  eventId := "3"
  eventType := EventType.userSynced.value
  source := "users"
  occurredAt := 3
  bookingId := none
  payload := .obj [("original", .obj [("email", .str email), ("role", .str "organizer"),
    ("user_id", .str "00000000-0000-0000-0000-00000000000a")])]
  idempotencyKey := none
  traceId := none
  spanId := none
  dataschema := none
  payloadHash := ""

theorem backfill_paths_agree_lastOrganizer :
    ((IngestEvent.process .sample "events.user.synced" (announced "B@example.org")).run
        (SqlExecutor.execute .sample) reassignedBooking).2.userIdAt 0 .organizer = some ⟨10⟩ ↔
      (runOnce .sample (answering (resolvesOnly .sample .organizer "B@example.org" ⟨10⟩)) 1
        reassignedBooking).2.userIdAt 0 .organizer = some ⟨10⟩ := by
  have hties : ∀ x ∈ listedEmails .sample reassignedBooking.tables.events "y" .organizer,
      ∀ y ∈ listedEmails .sample reassignedBooking.tables.events "y" .organizer,
        x.1 = y.1 → x.2 = y.2 := by decide
  refine (backfill_paths_agree_iff (b := reassignedRow) (by decide) (by decide) rfl rfl rfl
    hties).mpr fun _ => ?_
  exact ⟨(2, "b@example.org"), by decide, by decide, by decide⟩

/-- The replaced organizer is written by one path only. -/
theorem backfill_paths_disagree :
    ¬ (((IngestEvent.process .sample "events.user.synced" (announced "a@example.org")).run
        (SqlExecutor.execute .sample) reassignedBooking).2.userIdAt 0 .organizer = some ⟨10⟩ ↔
      (runOnce .sample (answering (resolvesOnly .sample .organizer "a@example.org" ⟨10⟩)) 1
        reassignedBooking).2.userIdAt 0 .organizer = some ⟨10⟩) := by decide

end EventSaver
