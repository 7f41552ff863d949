import Mathlib.Data.List.Sort
import EventSaver.Storage.Statements

/-!
# The periodic user-id backfill

`UserIdBackfillService.run_once` as a program over its four kinds of statement and request.
-/

namespace EventSaver
open JsonData TableData EffectProgram

/-- The columns `_SELECT_CANDIDATES` reads. -/
structure Candidate where
  id : Nat
  bookingUid : String
  organizerUserId : Option Uuid
  clientUserId : Option Uuid
  deriving DecidableEq

def Candidate.userId (row : Candidate) : RecipientRole → Option Uuid
  | .organizer => row.organizerUserId
  | .client => row.clientUserId

/-- What `resolve` gives: an answer, or `UsersServiceUnavailableError`. -/
inductive Resolution where
  | answered (userId : Option Uuid)
  | unavailable
  deriving DecidableEq

inductive CycleCall where
  | selectCandidates (batchSize : Nat)
  | selectLatestEmail (bookingUid : String) (role : RecipientRole)
  | resolve (email : String) (role : RecipientRole)
  | fillSlot (id : Nat) (role : RecipientRole) (userId : Uuid)

@[reducible] def CycleCall.Reply : CycleCall → Type
  | .selectCandidates _ => List Candidate
  | .selectLatestEmail _ _ => Option String
  | .resolve _ _ => Resolution
  | .fillSlot _ _ _ => Unit

abbrev CycleCalls : Signature := ⟨CycleCall, CycleCall.Reply⟩

abbrev Cycle (α : Type) := Program CycleCalls Exc α

structure BackfillSummary where
  scannedBookings : Nat
  resolved : Nat
  unresolved : Nat
  missingEmail : Nat
  aborted : Bool
  deriving DecidableEq

/-- The counters and the cache the helpers of one cycle share. -/
structure Tally where
  resolved : Nat
  unresolved : Nat
  missingEmail : Nat
  cache : List ((String × RecipientRole) × Option Uuid)

def Tally.zero : Tally := ⟨0, 0, 0, []⟩

namespace UserIdBackfillService

/-- The cached answer, or the one of the resolver, which is then cached. -/
def resolve (email : String) (role : RecipientRole) (tally : Tally) :
    Cycle (Tally × Resolution) := do
  match tally.cache.lookup (email, role) with
  | some userId => return (tally, .answered userId)
  | none =>
    match ← Program.perform (S := CycleCalls) (.resolve email role) with
    | .answered userId =>
      return ({ tally with cache := ((email, role), userId) :: tally.cache }, .answered userId)
    | .unavailable => return (tally, .unavailable)

/-- `_backfill_slot`. The second component tells whether the resolver was unavailable. -/
def backfillSlot (row : Candidate) (role : RecipientRole) (tally : Tally) :
    Cycle (Tally × Bool) := do
  match ← Program.perform (S := CycleCalls) (.selectLatestEmail row.bookingUid role) with
  | none => return ({ tally with missingEmail := tally.missingEmail + 1 }, false)
  | some email =>
    match ← resolve email role tally with
    | (tally, .unavailable) => return (tally, true)
    | (tally, .answered none) => return ({ tally with unresolved := tally.unresolved + 1 }, false)
    | (tally, .answered (some userId)) =>
      Program.perform (S := CycleCalls) (.fillSlot row.id role userId)
      return ({ tally with resolved := tally.resolved + 1 }, false)

/-- The roles whose column is NULL in a candidate row, in the order of `ROLE_COLUMNS`. -/
def missingRoles (row : Candidate) : List RecipientRole :=
  [.organizer, .client].filter fun role => row.userId role == none

/-- The slots of a batch in the order they are visited. -/
def slots (rows : List Candidate) : List (Candidate × RecipientRole) :=
  rows.flatMap fun row => (missingRoles row).map fun role => (row, role)

/-- The loop over the slots, which ends early when the resolver is unavailable. -/
def backfillSlots : List (Candidate × RecipientRole) → Tally → Cycle (Tally × Bool)
  | [], tally => return (tally, false)
  | (row, role) :: rest, tally => do
    match ← backfillSlot row role tally with
    | (tally, true) => return (tally, true)
    | (tally, false) => backfillSlots rest tally

def runOnceProgram (batchSize : Nat) : Cycle BackfillSummary := do
  let rows ← Program.perform (S := CycleCalls) (.selectCandidates batchSize)
  let (tally, aborted) ← backfillSlots (slots rows) .zero
  return {
    scannedBookings := rows.length
    resolved := tally.resolved
    unresolved := tally.unresolved
    missingEmail := tally.missingEmail
    aborted := aborted }

end UserIdBackfillService

section Statements

variable (ext : Externals)

def BookingRow.candidate (b : BookingRow) : Candidate :=
  ⟨b.id, b.bookingUid, b.organizerUserId, b.clientUserId⟩

/-- Whether a row lacks a user id. -/
def Booking.incomplete (b : Booking) : Bool :=
  b.organizerUserId == none || b.clientUserId == none

/-- `_SELECT_CANDIDATES`. -/
def selectCandidates (bookings : List BookingRow) (batchSize : Nat) : List BookingRow :=
  ((bookings.filter fun b => b.incomplete).insertionSort fun a b => a.id ≤ b.id).take batchSize

/-- The non-empty e-mails stored events of a booking list under a role, with the time of the
event. -/
def listedEmails (events : List EventRow) (bookingUid : String) (role : RecipientRole) :
    List (Timestamp × String) :=
  events.flatMap fun e => (e.listed ext bookingUid role).filterMap fun p =>
    match textAt ext p "email" with
    | some email => if email = "" then none else some (e.occurredAt, email)
    | none => none

/-- `_SELECT_LATEST_EMAIL`. Of several e-mails of the greatest time it gives the last. -/
def latestEmail (events : List EventRow) (bookingUid : String) (role : RecipientRole) :
    Option String :=
  (newest Prod.fst (listedEmails ext events bookingUid role)).map Prod.snd

/-- A stored event of a booking lists an e-mail under a role. -/
def EventRow.Lists (e : EventRow) (bookingUid : String) (role : RecipientRole) (email : String) :
    Prop :=
  email ≠ "" ∧ e.bookingId = some bookingUid ∧ ∃ p ∈ storedParticipants e.payload,
    textAt ext p "role" = some role.value ∧ textAt ext p "email" = some email

/-- A stored event lists the e-mail, and none that lists one under the role is later. -/
def ListedLast (events : List EventRow) (bookingUid : String) (role : RecipientRole)
    (email : String) : Prop :=
  ∃ e ∈ events, e.Lists ext bookingUid role email ∧
    ∀ e' ∈ events, ∀ email', e'.Lists ext bookingUid role email' → e'.occurredAt ≤ e.occurredAt

section Emails

variable {ext} {events : List EventRow} {bookingUid email : String} {role : RecipientRole}

lemma EventRow.Lists.mentions {e : EventRow} {email' : String}
    (h : e.Lists ext bookingUid role email) (hlower : ext.lower email = ext.lower email') :
    e.Mentions ext bookingUid role email' := by
  obtain ⟨_, hbooking, p, hp, hrole, hemail⟩ := h
  refine ⟨hbooking, p, hp, hrole, ?_⟩
  rw [hemail, Option.getD_some, hlower]

lemma mem_listedEmails {time : Timestamp} :
    (time, email) ∈ listedEmails ext events bookingUid role ↔
      ∃ e ∈ events, e.occurredAt = time ∧ e.Lists ext bookingUid role email := by
  have hentry (e : EventRow) (p : Json) :
      (match textAt ext p "email" with
        | some email => if email = "" then none else some (e.occurredAt, email)
        | none => none) = some (time, email) ↔
        e.occurredAt = time ∧ email ≠ "" ∧ textAt ext p "email" = some email := by
    cases textAt ext p "email" with
    | none => simp
    | some text =>
      by_cases htext : text = ""
      · simp only [htext, if_true, Option.some.injEq]
        exact iff_of_false nofun fun ⟨_, hne, heq⟩ => hne heq.symm
      · simp only [if_neg htext, Option.some.injEq, Prod.mk.injEq]
        exact ⟨fun ⟨htime, heq⟩ => ⟨htime, heq ▸ htext, heq⟩, fun ⟨htime, _, heq⟩ => ⟨htime, heq⟩⟩
  simp only [listedEmails, List.mem_flatMap, List.mem_filterMap, EventRow.mem_listed, hentry,
    EventRow.Lists]
  constructor
  · rintro ⟨e, he, p, ⟨hbooking, hp, hrole⟩, htime, hne, hemail⟩
    exact ⟨e, he, htime, hne, hbooking, p, hp, hrole, hemail⟩
  · rintro ⟨e, he, htime, hne, hbooking, p, hp, hrole, hemail⟩
    exact ⟨e, he, p, ⟨hbooking, hp, hrole⟩, htime, hne, hemail⟩

/-- The statement gives an e-mail of the latest event that lists one. -/
theorem latestEmail_listedLast (h : latestEmail ext events bookingUid role = some email) :
    ListedLast ext events bookingUid role email := by
  obtain ⟨⟨time, email'⟩, hnewest, rfl⟩ := Option.map_eq_some_iff.mp h
  obtain ⟨hmem, hlatest⟩ := newest_spec hnewest
  obtain ⟨e, he, htime, hlists⟩ := mem_listedEmails.mp hmem
  refine ⟨e, he, hlists, fun e' he' email'' hlists' => ?_⟩
  rw [htime]
  exact hlatest _ (mem_listedEmails.mpr ⟨e', he', rfl, hlists'⟩)

/-- The statement gives nothing only where no event lists an e-mail. -/
theorem latestEmail_eq_none_iff : latestEmail ext events bookingUid role = none ↔
    ∀ e ∈ events, ∀ email, ¬ e.Lists ext bookingUid role email := by
  rw [latestEmail, Option.map_eq_none_iff, newest_eq_none, List.eq_nil_iff_forall_not_mem]
  constructor
  · exact fun h e he email hlists => h _ (mem_listedEmails.mpr ⟨e, he, rfl, hlists⟩)
  · rintro h ⟨time, email⟩ hmem
    obtain ⟨e, he, _, hlists⟩ := mem_listedEmails.mp hmem
    exact h e he email hlists

end Emails

/-- `_UPDATE_TEMPLATE`. -/
def fillSlot (id : Nat) (role : RecipientRole) (userId : Uuid) :
    List BookingRow → List BookingRow :=
  updateWhere (fun b => b.id == id && b.userId role == none)
    fun b => b.update (·.setUserId role userId)

/-- The effect of one call of a cycle. The state counts the requests to the resolver, which may
answer each of them differently or fail. -/
def cycleExecute (resolver : Nat → String → RecipientRole → Except Exc Resolution) :
    Handler CycleCalls Exc (Db × Nat)
  | .selectCandidates batchSize, (db, n) =>
    .ok ((selectCandidates db.tables.bookings batchSize).map BookingRow.candidate, (db, n))
  | .selectLatestEmail bookingUid role, (db, n) =>
    .ok (latestEmail ext db.tables.events bookingUid role, (db, n))
  | .resolve email role, (db, n) =>
    match resolver n email role with
    | .ok resolution => .ok (resolution, (db, n + 1))
    | .error e => .error e
  | .fillSlot id role userId, (db, n) =>
    .ok ((), ({ db with tables.bookings := fillSlot id role userId db.tables.bookings }, n))

/-- `run_once`: one cycle as one transaction. -/
def runOnce (resolver : Nat → String → RecipientRole → Except Exc Resolution) (batchSize : Nat)
    (db : Db) : Except Exc BackfillSummary × Db :=
  let ended := transact (cycleExecute ext resolver) (fun start reached =>
    (start.1.rollback reached.1, reached.2)) .none (UserIdBackfillService.runOnceProgram batchSize)
    (db, 0)
  (ended.1, ended.2.1)

variable {ext}

variable (ext) in
/-- What holds between the ends of each UPDATE holds between the ends of a run. -/
lemma cycle_rel {α : Type} {R : Db → Db → Prop} (refl : ∀ db, R db db)
    (trans : ∀ {db db' db''}, R db db' → R db' db'' → R db db'')
    (fill : ∀ (db : Db) id role userId,
      R db { db with tables.bookings := fillSlot id role userId db.tables.bookings })
    (resolver : Nat → String → RecipientRole → Except Exc Resolution) (p : Cycle α) (s : Db × Nat) :
    R s.1 (p.run (cycleExecute ext resolver) s).2.1 := by
  refine Program.run_rel (cycleExecute ext resolver) (R := fun s s' => R s.1 s'.1)
    (fun s => refl s.1) trans (fun call s r s' hcall => ?_) p s
  cases call with
  | selectCandidates batchSize => cases hcall; exact refl _
  | selectLatestEmail bookingUid role => cases hcall; exact refl _
  | resolve email role =>
    rw [cycleExecute] at hcall
    split at hcall <;> cases hcall
    exact refl _
  | fillSlot id role userId => cases hcall; exact fill _ id role userId

/-- A cycle that raises leaves the database as it was: it moves no sequence. -/
lemma runOnce_eq (resolver : Nat → String → RecipientRole → Except Exc Resolution)
    (batchSize : Nat) (db : Db) :
    runOnce ext resolver batchSize db =
      match (UserIdBackfillService.runOnceProgram batchSize).run (cycleExecute ext resolver)
        (db, 0) with
      | (.error e, _) => (.error e, db)
      | (.ok summary, s) => (.ok summary, s.1) := by
  have hseq := cycle_rel ext
    (R := fun db db' => db'.bookingsSeq = db.bookingsSeq ∧
      db'.notificationsSeq = db.notificationsSeq)
    (fun db => ⟨rfl, rfl⟩) (fun h h' => ⟨h'.1.trans h.1, h'.2.trans h.2⟩)
    (fun db id role userId => ⟨rfl, rfl⟩) resolver
    (UserIdBackfillService.runOnceProgram batchSize) (db, 0)
  rw [runOnce, transact_none]
  generalize Program.run (cycleExecute ext resolver)
    (UserIdBackfillService.runOnceProgram batchSize) (db, 0) = ended at hseq ⊢
  obtain ⟨e | summary, reached⟩ := ended
  · have hstart : db.rollback reached.1 = db := by
      rw [Db.rollback, hseq.1, hseq.2]
    change (Except.error e, db.rollback reached.1) = (.error e, db)
    rw [hstart]
  · rfl

/-- A cycle that commits has run to its end. -/
lemma run_of_runOnce {resolver : Nat → String → RecipientRole → Except Exc Resolution}
    {batchSize : Nat} {db db' : Db} {summary : BackfillSummary}
    (h : runOnce ext resolver batchSize db = (.ok summary, db')) :
    ∃ n, (UserIdBackfillService.runOnceProgram batchSize).run (cycleExecute ext resolver) (db, 0) =
      (.ok summary, db', n) := by
  rw [runOnce_eq] at h
  rcases hrun : (UserIdBackfillService.runOnceProgram batchSize).run (cycleExecute ext resolver)
    (db, 0) with ⟨e | summary', s⟩
  · rw [hrun] at h
    cases h
  · rw [hrun] at h
    cases h
    exact ⟨s.2, rfl⟩

/-- What holds between the ends of each UPDATE holds between the ends of a cycle. -/
theorem runOnce_rel {R : Db → Db → Prop} (refl : ∀ db, R db db)
    (trans : ∀ {db db' db''}, R db db' → R db' db'' → R db db'')
    (fill : ∀ (db : Db) id role userId,
      R db { db with tables.bookings := fillSlot id role userId db.tables.bookings })
    (resolver : Nat → String → RecipientRole → Except Exc Resolution) (batchSize : Nat) (db : Db) :
    R db (runOnce ext resolver batchSize db).2 := by
  have hrel := cycle_rel ext refl trans fill resolver
    (UserIdBackfillService.runOnceProgram batchSize) (db, 0)
  rw [runOnce_eq]
  generalize Program.run (cycleExecute ext resolver)
    (UserIdBackfillService.runOnceProgram batchSize) (db, 0) = ended at hrel ⊢
  obtain ⟨e | summary, reached⟩ := ended
  · exact refl db
  · exact hrel

end Statements

end EventSaver
