import EventSaver.ReadCommitted
import EventSaver.StatementOrder
import EventSaver.UserIdBackfill

/-!
# Concurrent backfills

`save_event` transactions and cycles of the periodic backfill, interleaved statement by statement.
A cycle decides from rows it has read at its start; the guard inside each UPDATE is what keeps it
from overwriting an id. So a user id that is committed is changed by upserts and client updates
only, and never removed.
-/

namespace EventSaver
open JsonData TableData EffectProgram

/-- What `save_event` transactions and cycles of the backfill ask of their environment. -/
abbrev ServiceCalls : Signature := Calls.sum CycleCalls

/-- A transaction of the service: `save_event` for a message, or one cycle of the backfill. -/
inductive Task where
  | save (now : Timestamp) (m : Message)
  | runOnce (batchSize : Nat)

def Task.program (ext : Externals) : Task → Program ServiceCalls Exc Unit
  | .save now m => (IngestEvent.execute ext now m).inl
  | .runOnce batchSize =>
    (UserIdBackfillService.runOnceProgram batchSize).inr >>= fun _ => .pure ()

/-- A row after the update of a slot by the backfill. -/
def BookingRow.fillSlot (id : Nat) (role : RecipientRole) (userId : Uuid) (b : BookingRow) :
    BookingRow :=
  if b.id == id && b.userId role == none then b.update (·.setUserId role userId) else b

section Statements

variable (ext : Externals) (resolver : Nat → String → RecipientRole → Except Exc Resolution)
  (candidates : Visible → Nat → List Candidate)

/-- The effect of one call of a cycle on what is visible and on the number of requests to the
resolver. What `_SELECT_CANDIDATES` answers is left open. -/
def Visible.executeCycle : Handler CycleCalls Exc (Visible × Nat)
  | .selectCandidates batchSize, (s, n) => .ok (candidates s batchSize, (s, n))
  | .selectLatestEmail bookingUid role, (s, n) =>
    .ok (latestEmail ext s.events bookingUid role, (s, n))
  | .resolve email role, (s, n) =>
    match resolver n email role with
    | .ok resolution => .ok (resolution, (s, n + 1))
    | .error e => .error e
  | .fillSlot id role userId, (s, n) =>
    .ok ((), ({ s with
      bookings := fun uid => (s.bookings uid).map (BookingRow.fillSlot id role userId) }, n))

/-- The calls of a cycle do on what is visible what they do on the database. -/
lemma executeCycle_visible (c : CycleCall) (db : Db) (n : Nat) :
    (cycleExecute ext resolver c (db, n)).map (fun out => (out.1, (out.2.1.visible, out.2.2))) =
      Visible.executeCycle ext resolver
        (fun _ batchSize => (selectCandidates db.tables.bookings batchSize).map BookingRow.candidate)
        c (db.visible, n) := by
  cases c with
  | selectCandidates batchSize => rfl
  | selectLatestEmail bookingUid role => rfl
  | resolve email role =>
    simp only [cycleExecute, Visible.executeCycle]
    cases resolver n email role <;> rfl
  | fillSlot id role userId =>
    have hfind (uid : String) : findBooking uid (fillSlot id role userId db.tables.bookings) =
        (findBooking uid db.tables.bookings).map (BookingRow.fillSlot id role userId) :=
      find?_updateWhere fun b => by simp
    simp only [cycleExecute, Visible.executeCycle, Except.map, Db.visible, hfind]

/-- The loop over the slots reads no candidates. -/
lemma every_backfillSlots {P : CycleCall → Prop}
    (hlatest : ∀ uid role, P (.selectLatestEmail uid role))
    (hresolve : ∀ email role, P (.resolve email role)) (hfill : ∀ id role u, P (.fillSlot id role u))
    (slots : List (Candidate × RecipientRole)) (tally : Tally) :
    (UserIdBackfillService.backfillSlots slots tally).Every P := by
  have hasks (email : String) (role : RecipientRole) (tally : Tally) :
      (UserIdBackfillService.resolve email role tally).Every P := by
    unfold UserIdBackfillService.resolve
    cases tally.cache.lookup (email, role) with
    | some userId => trivial
    | none =>
      refine ⟨hresolve _ _, fun answer => ?_⟩
      cases answer <;> trivial
  have hslot (row : Candidate) (role : RecipientRole) (tally : Tally) :
      (UserIdBackfillService.backfillSlot row role tally).Every P := by
    unfold UserIdBackfillService.backfillSlot
    refine ⟨hlatest _ _, fun email => ?_⟩
    cases email with
    | none => trivial
    | some email =>
      refine (hasks email role tally).bind fun answer => ?_
      obtain ⟨tally', (_ | userId) | _⟩ := answer
      · trivial
      · exact ⟨hfill _ _ _, fun _ => trivial⟩
      · trivial
  induction slots generalizing tally with
  | nil => trivial
  | cons slot rest ih =>
    refine (hslot slot.1 slot.2 tally).bind fun answer => ?_
    obtain ⟨tally', _ | _⟩ := answer
    · exact ih tally'
    · trivial

/-- A cycle does on what is visible what it does on the database, when its candidates are those of
the database it starts from. -/
theorem runOnceProgram_visible (batchSize : Nat) (db : Db) (n : Nat) :
    (UserIdBackfillService.runOnceProgram batchSize).run (Visible.executeCycle ext resolver
        fun _ batchSize => (selectCandidates db.tables.bookings batchSize).map BookingRow.candidate)
        (db.visible, n) =
      let ended := (UserIdBackfillService.runOnceProgram batchSize).run (cycleExecute ext resolver)
        (db, n)
      (ended.1, ended.2.1.visible, ended.2.2) := by
  unfold UserIdBackfillService.runOnceProgram
  rw [Program.perform_bind, Program.run_call, Program.run_call]
  dsimp only [cycleExecute, Visible.executeCycle]
  refine Program.Every.run_map (P := fun c : CycleCall => ∀ k, c ≠ .selectCandidates k)
    (π := fun x : Db × Nat => (x.1.visible, x.2)) ?_ (fun c hc x => ?_) (db, n)
  · exact (every_backfillSlots (fun _ _ _ h => nomatch h) (fun _ _ _ h => nomatch h)
      (fun _ _ _ _ h => nomatch h) _ _).bind fun _ => trivial
  · have hcall := executeCycle_visible ext resolver c x.1 x.2
    cases c with
    | selectCandidates batchSize => exact absurd rfl (hc batchSize)
    | _ => exact hcall

/-- The effect of one call of a transaction of the service. -/
def Visible.executeService : Handler ServiceCalls Exc (Visible × Nat) :=
  Handler.sum (fun c x => (Visible.execute ext c x.1).map fun out => (out.1, (out.2, x.2)))
    (Visible.executeCycle ext resolver candidates)

end Statements

/-- The role and the id that a backfill UPDATE writes. -/
def fills : ServiceCalls.Call → Option (RecipientRole × Uuid)
  | .inl (.backfillUserIdByEmail _ role userId) => some (role, userId)
  | .inr (.fillSlot _ role userId) => some (role, userId)
  | _ => none

/-- A call of a cycle and its answer are among the answered calls of a transaction. -/
def Answered (tr : List (Σ c, ServiceCalls.Reply c)) (c : CycleCall) (r : c.Reply) : Prop :=
  (⟨.inr c, r⟩ : Σ c, ServiceCalls.Reply c) ∈ tr

/-- What the UPDATE of a backfill rests on. A cycle has read a row in which the column of the role is
NULL, looked up the e-mail of its booking under that role, and been given the id of the user with
that e-mail and that role. A `user.synced` event announces the e-mail, the role and the id. -/
def Task.Grounds (ext : Externals) (tr : List (Σ c, ServiceCalls.Reply c)) :
    Task → ServiceCalls.Call → Prop
  | .runOnce batchSize, .inr (.fillSlot id role userId) => ∃ rows, ∃ row ∈ rows, ∃ email,
      Answered tr (.selectCandidates batchSize) rows ∧ row.id = id ∧ row.userId role = none ∧
        Answered tr (.selectLatestEmail row.bookingUid role) (some email) ∧
          Answered tr (.resolve email role) (.answered (some userId))
  | .save _ m, .inl (.backfillUserIdByEmail email role userId) =>
      m.eventType = EventType.userSynced.value ∧
        IngestEvent.Announces ext m.payload email (.str role.value) userId
  | _, c => fills c = none

/-- Whether a statement writes the bookings row of a booking_uid. -/
def writesRow (ext : Externals) (s : Visible) (uid : String) : ServiceCalls.Call → Bool
  | .inl c => c.writes ext s uid
  | .inr (.fillSlot id role _) => (s.bookings uid).any fun b => b.id == id && b.userId role == none
  | .inr _ => false

/-- What a statement that writes a row makes of it. -/
inductive RowWrite (uid : String) : ServiceCalls.Call → Option BookingRow → BookingRow → Prop
  | upsert {row : Booking} {found : Option BookingRow} {id : Nat} (huid : row.bookingUid = uid) :
      RowWrite uid (.inl (.upsertBooking row)) found (row.upserted id found)
  | client {b : BookingRow} {userId : Uuid} :
      RowWrite uid (.inl (.updateClient b.id userId)) (some b)
        (b.update (·.setUserId .client userId))
  | fill {c : ServiceCalls.Call} {b : BookingRow} {role : RecipientRole} {userId : Uuid}
      (hfills : fills c = some (role, userId)) (hnull : b.userId role = none) :
      RowWrite uid c (some b) (b.update (·.setUserId role userId))

/-- The statements that set a user id that may be set already: an upsert that carries one, and a
client update. -/
def Overwrites (uid : String) (id : Nat) (role : RecipientRole) (userId : Uuid) :
    ServiceCalls.Call → Prop
  | .inl (.upsertBooking row) => row.bookingUid = uid ∧ row.userId role = some userId
  | .inl (.updateClient ref clientUserId) => ref = id ∧ role = .client ∧ clientUserId = userId
  | _ => False

/-- The statements that write bookings rows, but for the backfills. -/
def Assigns : ServiceCalls.Call → Prop
  | .inl (.upsertBooking _) => True
  | .inl (.updateClient _ _) => True
  | _ => False

/-- The row differs from an older one in the column of a role, which was NULL. -/
def BookingRow.FillsColumn (b old : BookingRow) (userId : Uuid) : RecipientRole → Prop
  | .organizer => old.organizerUserId = none ∧ b = { old with organizerUserId := some userId }
  | .client => old.clientUserId = none ∧ b = { old with clientUserId := some userId }

/-- The row differs from an older one in user ids that were NULL. -/
structure BookingRow.FillsNulls (b old : BookingRow) : Prop where
  columns : b = { old with organizerUserId := b.organizerUserId, clientUserId := b.clientUserId }
  kept : ∀ role u, old.userId role = some u → b.userId role = some u

lemma BookingRow.FillsNulls.trans {a b c : BookingRow} (h : a.FillsNulls b) (h' : b.FillsNulls c) :
    a.FillsNulls c := by
  refine ⟨?_, fun role u hu => h.kept role u (h'.kept role u hu)⟩
  rw [h.columns, h'.columns]

lemma BookingRow.fillsNulls_setUserId {b : BookingRow} {role : RecipientRole} {u : Uuid}
    (hnull : b.userId role = none) : (b.update (·.setUserId role u)).FillsNulls b := by
  refine ⟨by cases role <;> rfl, fun role' u' hu => ?_⟩
  cases role <;> cases role' <;> first | exact hu | (rw [hnull] at hu; cases hu)

section Rows

variable {uid : String} {c : ServiceCalls.Call} {found : Option BookingRow} {old b : BookingRow}

lemma RowWrite.id_eq (h : RowWrite uid c (some old) b) : b.id = old.id := by
  generalize hfound : some old = found at h
  cases h with
  | upsert huid =>
    subst hfound
    rfl
  | client =>
    cases hfound
    rfl
  | fill hfills hnull =>
    cases hfound
    rfl

/-- A statement leaves a user id, or overwrites it. -/
lemma RowWrite.slot (h : RowWrite uid c (some old) b) {role : RecipientRole} {u : Uuid}
    (hu : old.userId role = some u) :
    ∃ u', b.userId role = some u' ∧ (u' = u ∨ Overwrites uid b.id role u' c) := by
  generalize hfound : some old = found at h
  cases h with
  | @upsert row found id huid =>
    subst hfound
    have hmerge : ((old.update row.merge).toBooking).userId role =
        (row.userId role).or (old.userId role) := by
      cases role <;> rfl
    cases hrow : row.userId role with
    | none =>
      refine ⟨u, ?_, .inl rfl⟩
      rw [Booking.upserted, Option.elim_some, hmerge, hrow, hu]
      rfl
    | some u' =>
      refine ⟨u', ?_, .inr ⟨huid, hrow⟩⟩
      rw [Booking.upserted, Option.elim_some, hmerge, hrow]
      rfl
  | @client b' userId =>
    cases hfound
    cases role with
    | organizer => exact ⟨u, hu, .inl rfl⟩
    | client => exact ⟨userId, rfl, .inr ⟨rfl, rfl, rfl⟩⟩
  | fill hfills hnull =>
    cases hfound
    exact ⟨u, (BookingRow.fillsNulls_setUserId hnull).kept role u hu, .inl rfl⟩

/-- A backfill fills a NULL in a row that is there. -/
lemma RowWrite.fillsNulls (h : RowWrite uid c found b) (hc : ¬ Assigns c) :
    ∃ old, found = some old ∧ b.FillsNulls old := by
  cases h with
  | upsert huid => exact absurd trivial hc
  | client => exact absurd trivial hc
  | fill hfills hnull => exact ⟨_, rfl, BookingRow.fillsNulls_setUserId hnull⟩

end Rows

section Calls

variable {ext : Externals} {resolver : Nat → String → RecipientRole → Except Exc Resolution}
  {candidates : Visible → Nat → List Candidate} {s s' : Visible} {n n' : Nat}

/-- What a statement of a `save_event` transaction does to the bookings rows. -/
lemma Visible.execute_row {c : Call} {r : c.Reply} (h : Visible.execute ext c s = .ok (r, s'))
    (uid : String) :
    if c.writes ext s uid then
      ∃ b, s'.bookings uid = some b ∧ RowWrite uid (.inl c) (s.bookings uid) b
    else s'.bookings uid = s.bookings uid := by
  cases hw : c.writes ext s uid with
  | false =>
    rw [if_neg Bool.false_ne_true]
    exact ((Visible.execute_frame ext h).2 uid).2 hw
  | true =>
    rw [if_pos rfl]
    cases c with
    | upsertBooking row =>
      cases h
      obtain rfl : uid = row.bookingUid := eq_of_beq hw
      exact ⟨_, Function.update_self _ _ _, .upsert rfl⟩
    | updateClient ref userId =>
      cases h
      obtain ⟨b, hb, hid⟩ := (Option.any_eq_true _ _).mp hw
      obtain rfl : b.id = ref := eq_of_beq hid
      refine ⟨b.update (·.setUserId .client userId), ?_, ?_⟩
      · dsimp only
        rw [hb, Option.map_some, BookingRow.updateId, if_pos hid]
      · rw [hb]
        exact .client
    | backfillUserIdByEmail email role userId =>
      obtain ⟨email', hemail, h⟩ := bind_eq_ok.mp h
      cases h
      rw [Call.writes, hemail] at hw
      obtain ⟨b, hb, hreached⟩ := (Option.any_eq_true _ _).mp hw
      have hnull : b.userId role = none := by
        cases email' with
        | none => cases hreached
        | some email => exact eq_of_beq (Bool.and_eq_true_iff.mp hreached).1
      refine ⟨b.update (·.setUserId role userId), ?_, ?_⟩
      · dsimp only
        rw [hb, Option.map_some, BookingRow.backfill, if_pos hreached]
      · rw [hb]
        exact .fill rfl hnull
    | insertEvent _ => cases hw
    | incEventsTotal _ => cases hw
    | findByBookingUid _ => cases hw
    | saveOrganizerHistory _ _ => cases hw
    | incBookingLifecycleTotal _ => cases hw
    | project _ => cases hw

/-- What a statement of a cycle does. -/
lemma Visible.executeCycle_row {c : CycleCall} {r : c.Reply}
    (h : Visible.executeCycle ext resolver candidates c (s, n) = .ok (r, (s', n'))) :
    s'.events = s.events ∧ s'.bookingsSeq = s.bookingsSeq ∧
      ∀ uid, if writesRow ext s uid (.inr c) then
          ∃ b, s'.bookings uid = some b ∧ RowWrite uid (.inr c) (s.bookings uid) b
        else s'.bookings uid = s.bookings uid := by
  cases c with
  | selectCandidates batchSize =>
    cases h
    exact ⟨rfl, rfl, fun uid => rfl⟩
  | selectLatestEmail bookingUid role =>
    cases h
    exact ⟨rfl, rfl, fun uid => rfl⟩
  | resolve email role =>
    rw [Visible.executeCycle] at h
    split at h <;> cases h
    exact ⟨rfl, rfl, fun uid => rfl⟩
  | fillSlot id role userId =>
    cases h
    refine ⟨rfl, rfl, fun uid => ?_⟩
    rw [writesRow]
    dsimp only
    cases hb : s.bookings uid with
    | none => rfl
    | some b =>
      rw [Option.any_some, Option.map_some, BookingRow.fillSlot]
      split
      · rename_i hslot
        have hnull : b.userId role = none := eq_of_beq (Bool.and_eq_true_iff.mp hslot).2
        exact ⟨_, rfl, .fill rfl hnull⟩
      · rfl

/-- What a statement of the service does to the bookings rows. -/
theorem Visible.executeService_row {c : ServiceCalls.Call} {r : ServiceCalls.Reply c}
    (h : Visible.executeService ext resolver candidates c (s, n) = .ok (r, (s', n')))
    (uid : String) :
    if writesRow ext s uid c then
      ∃ b, s'.bookings uid = some b ∧ RowWrite uid c (s.bookings uid) b
    else s'.bookings uid = s.bookings uid := by
  cases c with
  | inl c =>
    obtain ⟨⟨r', s''⟩, hexec, hout⟩ := except_map_eq_ok.mp h
    cases hout
    exact Visible.execute_row hexec uid
  | inr c => exact (Visible.executeCycle_row h).2.2 uid

lemma Visible.executeService_events {c : ServiceCalls.Call} {r : ServiceCalls.Reply c}
    (h : Visible.executeService ext resolver candidates c (s, n) = .ok (r, (s', n'))) :
    s'.events = s.events ++ s'.events.drop s.events.length := by
  cases c with
  | inl c =>
    obtain ⟨⟨r', s''⟩, hexec, hout⟩ := except_map_eq_ok.mp h
    cases hout
    exact (Visible.execute_frame ext hexec).1
  | inr c => rw [(Visible.executeCycle_row h).1, List.drop_length, List.append_nil]

lemma BookingRow.fillsColumn_setUserId {b : BookingRow} {role : RecipientRole} {u : Uuid}
    (hnull : b.userId role = none) : (b.update (·.setUserId role u)).FillsColumn b u role := by
  cases role <;> exact ⟨hnull, rfl⟩

/-- What an UPDATE of a backfill does. -/
lemma Visible.executeService_fills {c : ServiceCalls.Call} {r : ServiceCalls.Reply c}
    {role : RecipientRole} {u : Uuid} (hc : fills c = some (role, u))
    (h : Visible.executeService ext resolver candidates c (s, n) = .ok (r, (s', n'))) :
    s'.events = s.events ∧ ∀ uid, s'.bookings uid = s.bookings uid ∨
      ∃ old b, s.bookings uid = some old ∧ s'.bookings uid = some b ∧ b.FillsColumn old u role := by
  refine ⟨?_, fun uid => ?_⟩
  · cases c with
    | inl c =>
      cases c with
      | backfillUserIdByEmail email role' u' =>
        obtain ⟨⟨r', s''⟩, hexec, hout⟩ := except_map_eq_ok.mp h
        cases hout
        obtain ⟨_, _, hexec⟩ := bind_eq_ok.mp hexec
        cases hexec
        rfl
      | _ => cases hc
    | inr c => exact (Visible.executeCycle_row h).1
  · have hrow := Visible.executeService_row h uid
    split at hrow
    · obtain ⟨b, hb, hwrite⟩ := hrow
      generalize hfound : s.bookings uid = found at hwrite
      cases hwrite with
      | upsert huid => cases hc
      | client => cases hc
      | fill hfills hnull =>
        obtain ⟨rfl, rfl⟩ := Prod.mk.inj (Option.some.inj (hfills.symm.trans hc))
        exact .inr ⟨_, _, rfl, hb, BookingRow.fillsColumn_setUserId hnull⟩
    · exact .inl hrow

end Calls

/-- Whether a statement waits for a transaction that has written `other`, for a row of `events` or
`bookings`. -/
def BlocksService (ext : Externals) (s : Visible) (other : Writes) : ServiceCalls.Call → Prop
  | .inl c => Writes.Blocks ext c s other
  | .inr c => ∃ uid, writesRow ext s uid (.inr c) ∧ (other.bookings uid).isSome

/-- Nobody waits for a transaction that has written nothing. -/
lemma not_blocksService_empty (ext : Externals) (s : Visible) (c : ServiceCalls.Call) :
    ¬ BlocksService ext s .empty c := by
  cases c with
  | inl c => exact Writes.not_blocks_empty ext c s
  | inr c =>
    rintro ⟨_, _, hsome⟩
    cases hsome

/-- READ COMMITTED for the transactions of the service. -/
def serviceReadCommitted (ext : Externals)
    (resolver : Nat → String → RecipientRole → Except Exc Resolution)
    (candidates : Visible → Nat → List Candidate) :
    Isolation ServiceCalls Exc (Visible × Nat) Writes where
  handler := Visible.executeService ext resolver candidates
  start := .empty
  view := fun own x => (own.view x.1, x.2)
  write := fun own c x x' =>
    { events := own.events ++ x'.1.events.drop x.1.events.length
      bookings := fun uid => if writesRow ext x.1 uid c then x'.1.bookings uid else own.bookings uid }
  outside := fun x x' => ({ x.1 with bookingsSeq := x'.1.bookingsSeq }, x'.2)
  Waits := fun c x other => BlocksService ext x.1 other c
  view_start x := by
    exact Prod.ext (Visible.ext (List.append_nil _) rfl rfl) rfl
  view_write {own x c r x'} h := by
    obtain ⟨s, n⟩ := x
    obtain ⟨s', n'⟩ := x'
    refine Prod.ext (Visible.ext ?_ (funext fun uid => ?_) rfl) rfl
    · calc s.events ++ (own.events ++ s'.events.drop (own.view s).events.length)
          = (own.view s).events ++ s'.events.drop (own.view s).events.length :=
            (List.append_assoc _ _ _).symm
        _ = s'.events := (Visible.executeService_events h).symm
    · change (if writesRow ext (own.view s) uid c then s'.bookings uid else own.bookings uid).or
        (s.bookings uid) = s'.bookings uid
      have hrow := Visible.executeService_row h uid
      cases hw : writesRow ext (own.view s) uid c with
      | true =>
        rw [hw, if_pos rfl] at hrow
        obtain ⟨b, hb, _⟩ := hrow
        rw [if_pos rfl, hb, Option.some_or]
      | false =>
        rw [hw, if_neg Bool.false_ne_true] at hrow
        rw [if_neg Bool.false_ne_true, hrow]
        rfl

lemma servicePasses_empty (ext : Externals)
    (resolver : Nat → String → RecipientRole → Except Exc Resolution)
    (candidates : Visible → Nat → List Candidate) (n : Nat) (t : Tx ServiceCalls Exc Writes)
    (x : Visible × Nat) : (serviceReadCommitted ext resolver candidates).Passes .empty n t x :=
  Isolation.passes _ (fun c x => not_blocksService_empty ext x.1 c) n t x

/-- A pool of transactions of the service. -/
abbrev ServicePool (ι : Type) := Pool ServiceCalls Exc (Visible × Nat) Writes ι

/-- A version of a row that comes from the committed one by the statements of a trace: what they
do not overwrite is kept, and backfills alone fill what is NULL. -/
structure Derived (uid : String) (tr : List (Σ c, ServiceCalls.Reply c))
    (committed : Option BookingRow) (b : BookingRow) : Prop where
  kept : ∀ old, committed = some old → b.id = old.id ∧ ∀ role u, old.userId role = some u →
    ∃ u', b.userId role = some u' ∧ (u' = u ∨ ∃ e ∈ tr, Overwrites uid b.id role u' e.1)
  filled : (∀ e ∈ tr, ¬ Assigns e.1) → ∃ old, committed = some old ∧ b.FillsNulls old

namespace Derived

variable {uid : String} {tr : List (Σ c, ServiceCalls.Reply c)} {committed : Option BookingRow}
  {b b' : BookingRow} {c : ServiceCalls.Call} {r : ServiceCalls.Reply c}

/-- The first write of a row. -/
lemma of_write (h : RowWrite uid c committed b) : Derived uid (tr ++ [⟨c, r⟩]) committed b := by
  refine ⟨?_, fun hassigns => ?_⟩
  · rintro old rfl
    refine ⟨h.id_eq, fun role u hu => ?_⟩
    obtain ⟨u', hu', hslot⟩ := h.slot hu
    exact ⟨u', hu', hslot.imp_right fun hover => ⟨⟨c, r⟩, List.mem_concat_self, hover⟩⟩
  · exact h.fillsNulls (hassigns ⟨c, r⟩ List.mem_concat_self)

/-- A further write. -/
lemma write (h : Derived uid tr committed b) (hwrite : RowWrite uid c (some b) b') :
    Derived uid (tr ++ [⟨c, r⟩]) committed b' := by
  refine ⟨fun old hold => ?_, fun hassigns => ?_⟩
  · obtain ⟨hid, hkept⟩ := h.kept old hold
    refine ⟨hwrite.id_eq.trans hid, fun role u hu => ?_⟩
    obtain ⟨v, hv, hslot⟩ := hkept role u hu
    obtain ⟨u', hu', hslot'⟩ := hwrite.slot hv
    refine ⟨u', hu', ?_⟩
    rcases hslot' with rfl | hover
    · rcases hslot with rfl | ⟨e, he, hover⟩
      · exact .inl rfl
      · exact .inr ⟨e, List.mem_append_left _ he, hwrite.id_eq ▸ hover⟩
    · exact .inr ⟨⟨c, r⟩, List.mem_concat_self, hover⟩
  · obtain ⟨old, hold, hfills⟩ := h.filled fun e he => hassigns e (List.mem_append_left _ he)
    obtain ⟨_, hb, hfills'⟩ := hwrite.fillsNulls (hassigns ⟨c, r⟩ List.mem_concat_self)
    obtain rfl := Option.some.inj hb
    exact ⟨old, hold, hfills'.trans hfills⟩

/-- A statement that does not write the row. -/
lemma skip (h : Derived uid tr committed b) : Derived uid (tr ++ [⟨c, r⟩]) committed b := by
  refine ⟨fun old hold => ?_, fun hassigns =>
    h.filled fun e he => hassigns e (List.mem_append_left _ he)⟩
  obtain ⟨hid, hkept⟩ := h.kept old hold
  refine ⟨hid, fun role u hu => ?_⟩
  obtain ⟨u', hu', hslot⟩ := hkept role u hu
  exact ⟨u', hu', hslot.imp_right fun ⟨e, he, hover⟩ => ⟨e, List.mem_append_left _ he, hover⟩⟩

end Derived

/-- No two open transactions have written one row, and every version of a row comes from the
committed one. -/
structure Guarded {ι : Type} (p : ServicePool ι) : Prop where
  holder : ∀ uid i j, p.Running i → p.Running j → (p.tx i).own.bookings uid ≠ none →
    (p.tx j).own.bookings uid ≠ none → i = j
  derived : ∀ i, p.Running i → ∀ uid b, (p.tx i).own.bookings uid = some b →
    Derived uid (p.tx i).trace (p.shared.1.bookings uid) b

section Invariant

variable {ext : Externals} {resolver : Nat → String → RecipientRole → Except Exc Resolution}
  {candidates : Visible → Nat → List Candidate} {ι : Type} [DecidableEq ι] {p q : ServicePool ι}

omit [DecidableEq ι] in
lemma Guarded.heldOnce (h : Guarded p) (uid : String) :
    p.HeldOnce fun t => t.own.bookings uid ≠ none := h.holder uid

/-- A transaction gets a call answered. -/
lemma Guarded.call (h : Guarded p) {i : ι} {c : ServiceCalls.Call} {r : ServiceCalls.Reply c}
    {x : Visible × Nat} {rest : Program ServiceCalls Exc Unit} (running : p.Running i)
    (free : ∀ j, j ≠ i → p.Running j →
      ¬ BlocksService ext (p.view (serviceReadCommitted ext resolver candidates) i).1
        (p.tx j).own c)
    (answer : Visible.executeService ext resolver candidates c
      (p.view (serviceReadCommitted ext resolver candidates) i) = .ok (r, x))
    (hother : ∀ j, j ≠ i → q.tx j = p.tx j)
    (htx : q.tx i = ⟨.running, (p.tx i).trace ++ [⟨c, r⟩], rest,
      (serviceReadCommitted ext resolver candidates).write (p.tx i).own c
        (p.view (serviceReadCommitted ext resolver candidates) i) x⟩)
    (hshared : q.shared.1.bookings = p.shared.1.bookings) : Guarded q := by
  obtain ⟨s, n⟩ := x
  generalize hview : (p.view (serviceReadCommitted ext resolver candidates) i).1 = v at free
  have hviewRow (uid : String) : v.bookings uid =
      ((p.tx i).own.bookings uid).or (p.shared.1.bookings uid) := by
    rw [← hview]
    rfl
  have hown (uid : String) : (q.tx i).own.bookings uid =
      if writesRow ext v uid c then s.bookings uid else (p.tx i).own.bookings uid := by
    rw [htx, ← hview]
    rfl
  have hrow (uid : String) : if writesRow ext v uid c then
        ∃ b, s.bookings uid = some b ∧ RowWrite uid c (v.bookings uid) b
      else s.bookings uid = v.bookings uid := by
    rw [← hview]
    exact Visible.executeService_row answer uid
  have hfree (uid : String) (hw : writesRow ext v uid c = true) (j : ι) (hj : j ≠ i)
      (hr : p.Running j) : (p.tx j).own.bookings uid = none := by
    by_contra hown
    have hblocks : ∃ uid, writesRow ext v uid c = true ∧
        ((p.tx j).own.bookings uid).isSome = true := ⟨uid, hw, Option.isSome_iff_ne_none.mpr hown⟩
    refine free j hj hr ?_
    cases c with
    | inl c =>
      cases c with
      | insertEvent row => cases hw
      | _ => exact hblocks
    | inr c => exact hblocks
  have hrunning {j : ι} (hr : q.Running j) : p.Running j := by
    by_cases hj : j = i
    · rw [hj]
      exact running
    · rwa [Pool.Running, ← hother j hj]
  refine ⟨fun uid => ?_, fun j hj uid b hb => ?_⟩
  · refine (h.heldOnce uid).move hother
      fun _ hheld j hji hj hjs => ?_
    rw [hown] at hheld
    cases hw : writesRow ext v uid c with
    | true => exact hjs (hfree uid hw j hji hj)
    | false =>
      rw [hw, if_neg Bool.false_ne_true] at hheld
      exact hji (h.holder uid j i hj running hjs hheld)
  · rw [hshared]
    by_cases hji : j = i
    · subst hji
      rw [hown] at hb
      rw [htx]
      have hrow := hrow uid
      cases hw : writesRow ext v uid c with
      | true =>
        rw [hw, if_pos rfl] at hrow hb
        obtain ⟨b', hb', hwrite⟩ := hrow
        obtain rfl := Option.some.inj (hb.symm.trans hb')
        rw [hviewRow] at hwrite
        cases hfirst : (p.tx j).own.bookings uid with
        | none =>
          rw [hfirst, Option.none_or] at hwrite
          exact .of_write hwrite
        | some b₀ =>
          rw [hfirst, Option.some_or] at hwrite
          exact (h.derived j running uid b₀ hfirst).write hwrite
      | false =>
        rw [hw, if_neg Bool.false_ne_true] at hb
        exact (h.derived j running uid b hb).skip
    · rw [hother j hji] at hb ⊢
      exact h.derived j (hrunning hj) uid b hb

theorem Guarded.step (h : Guarded p) {a : Action ServiceCalls ι}
    (hstep : p.Step (serviceReadCommitted ext resolver candidates) a q) : Guarded q := by
  have hother (j : ι) (hj : j ≠ a.tx) : q.tx j = p.tx j := hstep.tx_of_ne hj
  have hended (hnot : ¬ q.Running a.tx) {j : ι} (hj : q.Running j) : j ≠ a.tx ∧ p.Running j := by
    have hja : j ≠ a.tx := by
      rintro rfl
      exact hnot hj
    rw [Pool.Running, hother j hja] at hj
    exact ⟨hja, hj⟩
  have hholder (hnot : ¬ q.Running a.tx) (uid : String) :=
    (h.heldOnce uid).move hother
      fun hr => absurd hr hnot
  cases hstep with
  | @call i c next r x running rest free answer =>
    exact h.call running free answer hother Pool.set_tx_self rfl
  | @commit i running rest =>
    have hnot : ¬ (p.set i (p.view (serviceReadCommitted ext resolver candidates) i)
        { p.tx i with status := .committed }).Running i := by
      rw [Pool.Running, Pool.set_tx_self]
      intro hrunning
      cases hrunning
    refine ⟨hholder hnot, fun j hj uid b hb => ?_⟩
    obtain ⟨hji, hj⟩ := hended hnot hj
    rw [hother j hji] at hb ⊢
    have hown : (p.tx i).own.bookings uid = none := by
      by_contra hown
      have hsome : (p.tx j).own.bookings uid ≠ none := by
        rw [hb]
        exact Option.some_ne_none b
      exact hji (h.holder uid j i hj running hsome hown)
    have hshared : (p.view (serviceReadCommitted ext resolver candidates) i).1.bookings uid =
        p.shared.1.bookings uid := by
      change ((p.tx i).own.bookings uid).or _ = _
      rw [hown, Option.none_or]
    rw [Pool.set_shared, hshared]
    exact h.derived j hj uid b hb
  | @abort i running =>
    have hnot : ¬ (p.set i p.shared { p.tx i with status := .aborted }).Running i := by
      rw [Pool.Running, Pool.set_tx_self]
      intro hrunning
      cases hrunning
    refine ⟨hholder hnot, fun j hj uid b hb => ?_⟩
    obtain ⟨hji, hj⟩ := hended hnot hj
    rw [hother j hji] at hb ⊢
    exact h.derived j hj uid b hb

lemma guarded_of_run {x : Visible × Nat} {program : ι → Program ServiceCalls Exc Unit}
    (h : Pool.Steps (serviceReadCommitted ext resolver candidates)
      (Pool.start (serviceReadCommitted ext resolver candidates) x program) p) : Guarded p := by
  refine Pool.Run.invariant h ⟨fun uid i j _ _ hi => absurd rfl hi, fun i _ uid b hb => ?_⟩
    fun hp _ hstep => hp.step hstep
  cases hb

/-- What a step makes of a committed row. -/
lemma Guarded.step_row (h : Guarded p) {a : Action ServiceCalls ι}
    (hstep : p.Step (serviceReadCommitted ext resolver candidates) a q) (uid : String) :
    q.shared.1.bookings uid = p.shared.1.bookings uid ∨
      ∃ i b, a = .commit i ∧ q.shared.1.bookings uid = some b ∧
        Derived uid (p.tx i).trace (p.shared.1.bookings uid) b := by
  cases hstep with
  | call running rest free answer => exact .inl rfl
  | abort running => exact .inl rfl
  | @commit i running rest =>
    have hrow : (p.view (serviceReadCommitted ext resolver candidates) i).1.bookings uid =
        ((p.tx i).own.bookings uid).or (p.shared.1.bookings uid) := rfl
    rw [Pool.set_shared, hrow]
    cases hb : (p.tx i).own.bookings uid with
    | none => exact .inl (Option.none_or)
    | some b => exact .inr ⟨i, b, rfl, rfl, h.derived i running uid b hb⟩

/-- A step keeps a committed row and the user ids that are set in it, up to what the transaction
that commits has given them. -/
lemma Guarded.step_kept (h : Guarded p) {a : Action ServiceCalls ι}
    (hstep : p.Step (serviceReadCommitted ext resolver candidates) a q) {uid : String}
    {old : BookingRow} (hold : p.shared.1.bookings uid = some old) :
    ∃ b, q.shared.1.bookings uid = some b ∧ b.id = old.id ∧ ∀ role u,
      old.userId role = some u → ∃ u', b.userId role = some u' ∧ (u' = u ∨
        ∃ i, a = .commit i ∧ ∃ e ∈ (p.tx i).trace, Overwrites uid b.id role u' e.1) := by
  rcases h.step_row hstep uid with hsame | ⟨i, b, ha, hb, hderived⟩
  · exact ⟨old, hsame.trans hold, rfl, fun role u hu => ⟨u, hu, .inl rfl⟩⟩
  · obtain ⟨hid, hkept⟩ := hderived.kept old hold
    refine ⟨b, hb, hid, fun role u hu => ?_⟩
    obtain ⟨u', hu', hslot⟩ := hkept role u hu
    exact ⟨u', hu', hslot.imp_right fun hover => ⟨i, ha, hover⟩⟩

end Invariant

/-- The transactions that do nothing to bookings but backfills. -/
def Task.Backfills : Task → Prop
  | .save _ m => m.eventType = EventType.userSynced.value
  | .runOnce _ => True

lemma Task.Backfills.every {ext : Externals} {task : Task} (h : task.Backfills) :
    (task.program ext).Every fun c => ¬ Assigns c := by
  cases task with
  | runOnce batchSize =>
    refine (Program.every_inr (fun c => ?_) _).bind fun _ => trivial
    exact not_false
  | save now m =>
    refine Program.Every.inl ?_
    cases hparse : EventParser.parse ext now m with
    | error e =>
      rw [execute_of_not_parse hparse]
      trivial
    | ok event =>
      rw [execute_of_parse hparse]
      refine ⟨not_false, fun isInserted => ?_⟩
      cases isInserted with
      | false => trivial
      | true =>
        refine ⟨not_false, fun _ => ?_⟩
        have htype : event.eventType = EventType.userSynced.value :=
          (EventParser.parse_filed ext hparse).2.1.trans h
        unfold IngestEvent.process
        rw [if_pos htype]
        refine (Program.every_lift _).bind fun user => ?_
        unfold BookingRepository.backfillUserIdByEmail
        refine (Program.every_lift _).bind fun column => ?_
        cases column with
        | none => trivial
        | some column => exact ⟨not_false, fun _ => trivial⟩

section Grounds

variable {ext : Externals} {batchSize : Nat} {tr : List (Σ c, ServiceCalls.Reply c)}

/-- A cached id has been given for the e-mail and the role it is cached under. -/
def Tally.Asked (tr : List (Σ c, ServiceCalls.Reply c)) (tally : Tally) : Prop :=
  ∀ email role u, tally.cache.lookup (email, role) = some (some u) →
    Answered tr (.resolve email role) (.answered (some u))

/-- A cycle asks the resolver for what it has not cached. -/
lemma resolve_asks (email : String) (role : RecipientRole) {tally : Tally} (h : tally.Asked tr) :
    (UserIdBackfillService.resolve email role tally).Ensures
      (fun tr c r tr' => tr' = tr ++ [⟨.inr c, r⟩])
      (fun tr c => (Task.runOnce batchSize).Grounds ext tr (.inr c))
      (fun tr' out => tr ⊆ tr' ∧ out.1.Asked tr' ∧ ∀ u, out.2 = .answered (some u) →
        Answered tr' (.resolve email role) (.answered (some u))) tr := by
  unfold UserIdBackfillService.resolve
  cases hcached : tally.cache.lookup (email, role) with
  | some answer =>
    refine ⟨List.Subset.refl tr, h, fun u hu => ?_⟩
    cases hu
    exact h email role u hcached
  | none =>
    refine ⟨rfl, fun resolution tr' htr => ?_⟩
    subst htr
    have hsub : tr ⊆ tr ++ [⟨.inr (.resolve email role), resolution⟩] := List.subset_append_left _ _
    cases resolution with
    | unavailable => exact ⟨hsub, fun email' role' u hu => hsub (h email' role' u hu), nofun⟩
    | answered answer =>
      have hanswer (u : Uuid) (hu : answer = some u) :
          Answered (tr ++ [⟨.inr (.resolve email role), Resolution.answered answer⟩])
            (.resolve email role) (.answered (some u)) := by
        rw [← hu]
        exact List.mem_concat_self
      refine ⟨hsub, fun email' role' u hu => ?_, fun u hu => hanswer u (Resolution.answered.inj hu)⟩
      rw [List.lookup_cons] at hu
      by_cases hkey : (email', role') = (email, role)
      · obtain ⟨rfl, rfl⟩ := Prod.mk.inj hkey
        rw [beq_self_eq_true] at hu
        exact hanswer u (Option.some.inj hu)
      · rw [beq_eq_false_iff_ne.mpr hkey] at hu
        exact hsub (h email' role' u hu)

lemma backfillSlot_grounds {rows : List Candidate} {row : Candidate} {role : RecipientRole}
    {tally : Tally} (hrows : Answered tr (.selectCandidates batchSize) rows) (hrow : row ∈ rows)
    (hnull : row.userId role = none) (h : tally.Asked tr) :
    (UserIdBackfillService.backfillSlot row role tally).Ensures
      (fun tr c r tr' => tr' = tr ++ [⟨.inr c, r⟩])
      (fun tr c => (Task.runOnce batchSize).Grounds ext tr (.inr c))
      (fun tr' out => tr ⊆ tr' ∧ out.1.Asked tr') tr := by
  unfold UserIdBackfillService.backfillSlot
  refine ⟨rfl, fun email? tr' htr => ?_⟩
  have hsub : tr ⊆ tr' := htr ▸ List.subset_append_left _ _
  have hemail : Answered tr' (.selectLatestEmail row.bookingUid role) email? :=
    htr ▸ List.mem_concat_self
  have htally : tally.Asked tr' := fun email role u hu => hsub (h email role u hu)
  cases email? with
  | none => exact ⟨hsub, htally⟩
  | some email =>
    refine (resolve_asks email role htally).bind fun tr'' out hout => ?_
    obtain ⟨tally', resolution⟩ := out
    obtain ⟨hsub', htally', hasked⟩ := hout
    have hsub'' : tr ⊆ tr'' := List.Subset.trans hsub hsub'
    match resolution with
    | .unavailable => exact ⟨hsub'', htally'⟩
    | .answered none => exact ⟨hsub'', htally'⟩
    | .answered (some userId) =>
      refine ⟨⟨rows, row, hrow, email, hsub'' hrows, rfl, hnull, hsub' hemail, hasked userId rfl⟩, ?_⟩
      rintro _ _ rfl
      have hlast : tr'' ⊆ tr'' ++ [⟨.inr (.fillSlot row.id role userId), ()⟩] :=
        List.subset_append_left _ _
      exact ⟨List.Subset.trans hsub'' hlast, fun email role u hu => hlast (htally' email role u hu)⟩

/-- A cycle fills no slot but with the id it has asked for, for the e-mail and the role of the
slot. -/
theorem runOnceProgram_grounds :
    (UserIdBackfillService.runOnceProgram batchSize).Ensures
      (fun tr c r tr' => tr' = tr ++ [⟨.inr c, r⟩])
      (fun tr c => (Task.runOnce batchSize).Grounds ext tr (.inr c)) (fun _ _ => True) tr := by
  have hslots (slots : List (Candidate × RecipientRole)) (tally : Tally)
      (tr : List (Σ c, ServiceCalls.Reply c)) (rows : List Candidate)
      (hrows : Answered tr (.selectCandidates batchSize) rows)
      (hmem : ∀ slot ∈ slots, slot.1 ∈ rows ∧ slot.1.userId slot.2 = none)
      (htally : tally.Asked tr) :
      (UserIdBackfillService.backfillSlots slots tally).Ensures
        (fun tr c r tr' => tr' = tr ++ [⟨.inr c, r⟩])
        (fun tr c => (Task.runOnce batchSize).Grounds ext tr (.inr c)) (fun _ _ => True) tr := by
    induction slots generalizing tally tr with
    | nil => trivial
    | cons slot rest ih =>
      rw [List.forall_mem_cons] at hmem
      refine (backfillSlot_grounds hrows hmem.1.1 hmem.1.2 htally).bind fun tr' out hout => ?_
      obtain ⟨tally', unavailable⟩ := out
      cases unavailable with
      | true => trivial
      | false => exact ih tally' tr' (hout.1 hrows) hmem.2 hout.2
  unfold UserIdBackfillService.runOnceProgram
  refine ⟨rfl, fun rows tr' htr => ?_⟩
  refine (hslots _ .zero tr' rows (htr ▸ List.mem_concat_self) ?_ ?_).bind fun _ _ _ => trivial
  · intro slot hslot
    rw [UserIdBackfillService.slots, List.mem_flatMap] at hslot
    obtain ⟨row, hrow, hslot⟩ := hslot
    obtain ⟨role, hrole, rfl⟩ := List.mem_map.mp hslot
    exact ⟨hrow, eq_of_beq (List.mem_filter.mp hrole).2⟩
  · intro email role u hu
    cases hu

/-- Processing a booking backfills nothing. -/
lemma Unwritten.every_fills {looks : Prop} {uid : String} {p : Ingest Unit}
    (h : Unwritten looks False uid p) : p.Every fun c => fills (.inl c) = none := by
  have hprojects {c : Call} (hc : c.Projects) : fills (.inl c) = none := by
    cases c <;> first | rfl | exact hc.elim
  induction h with
  | pure => trivial
  | throw e => trivial
  | count _ ih => exact ⟨rfl, ih⟩
  | lookup _ _ _ ih => exact ⟨rfl, ih⟩
  | upsert _ hnext =>
    refine ⟨rfl, fun r => (hnext r).mono fun c hc => ?_⟩
    cases c <;> first | rfl | exact hprojects hc
  | backfill hsynced => exact hsynced.elim
  | project hc _ ih => exact ⟨hprojects hc, ih⟩

lemma announces_of_orEmpty {payload email role : Json} {u : Uuid}
    (h : IngestEvent.Announces ext (EventParser.orEmpty payload) email role u) :
    IngestEvent.Announces ext payload email role u := by
  unfold EventParser.orEmpty at h
  split at h
  · exact h
  · obtain ⟨_, _, horiginal, _⟩ := h
    cases horiginal

/-- A `save_event` transaction backfills nothing but what a `user.synced` event announces. -/
lemma execute_grounds (now : Timestamp) (m : Message) :
    (IngestEvent.execute ext now m).Every fun c => (Task.save now m).Grounds ext tr (.inl c) := by
  cases hparse : EventParser.parse ext now m with
  | error e =>
    rw [execute_of_not_parse hparse]
    trivial
  | ok event =>
    obtain ⟨_, htype, hpayload⟩ := EventParser.parse_filed ext hparse
    rw [execute_of_parse hparse]
    refine ⟨rfl, fun isInserted => ?_⟩
    cases isInserted with
    | false => trivial
    | true =>
      refine ⟨rfl, fun _ => ?_⟩
      have hother {p : Ingest Unit} (hp : p.Every fun c => fills (.inl c) = none) :
          p.Every fun c => (Task.save now m).Grounds ext tr (.inl c) := by
        refine hp.mono fun c hc => ?_
        cases c <;> first | exact hc | cases hc
      unfold IngestEvent.process
      split
      · rename_i hsynced
        cases huser : IngestEvent.syncedUser ext event.payload with
        | error e => trivial
        | ok user =>
          obtain ⟨email, role, userId⟩ := user
          have hannounces := IngestEvent.announces_of_syncedUser ext huser
          rw [hpayload] at hannounces
          simp only [Program.lift_ok, Program.bind_pure', BookingRepository.backfillUserIdByEmail]
          cases hcolumn : BookingRepository.roleColumn role with
          | error e => trivial
          | ok column =>
            cases column with
            | none => trivial
            | some column =>
              refine ⟨⟨htype.symm.trans hsynced, ?_⟩, fun _ => trivial⟩
              rw [← BookingRepository.roleColumn_eq_some hcolumn]
              exact announces_of_orEmpty hannounces
      · split
        · trivial
        · split
          · trivial
          · exact hother (unwritten_processBooking m.queueName False).every_fills

lemma Task.program_grounds (ext : Externals) (task : Task) :
    (task.program ext).Ensures (fun tr c r tr' => tr' = tr ++ [⟨c, r⟩]) (task.Grounds ext)
      (fun _ _ => True) [] := by
  cases task with
  | save now m =>
    have hevery := Program.Every.inl (@execute_grounds ext [] now m)
    refine hevery.ensures.mono fun tr c hc => ?_
    cases c with
    | inl c => cases c <;> exact hc
    | inr c => exact hc
  | runOnce batchSize =>
    exact (Program.Ensures.inr runOnceProgram_grounds).bind fun _ _ _ => trivial

end Grounds

section Runs

variable {ext : Externals} {resolver : Nat → String → RecipientRole → Except Exc Resolution}
  {candidates : Visible → Nat → List Candidate} {ι : Type} [DecidableEq ι]
  {entry : ι → Task} {x : Visible × Nat} {p : ServicePool ι}

/-- A cycle that starts beside no open transaction may run to its end, and commits what it leaves on
the database alone. -/
theorem runOnce_alone {i : ι} {db db' : Db} {batchSize : Nat} {summary : BackfillSummary}
    (hbegun : p.tx i = ⟨.running, [], (Task.runOnce batchSize).program ext, .empty⟩)
    (hshared : p.shared = (db.visible, 0)) (halone : ∀ j, j ≠ i → ¬ p.Running j)
    (hcandidates : candidates = fun _ batchSize =>
      (selectCandidates db.tables.bookings batchSize).map BookingRow.candidate)
    (hcycle : runOnce ext resolver batchSize db = (.ok summary, db')) :
    ∃ q, Pool.Steps (serviceReadCommitted ext resolver candidates) p q ∧ q.Committed i ∧
      q.shared.1 = db'.visible := by
  have hview : p.view (serviceReadCommitted ext resolver candidates) i = (db.visible, 0) := by
    rw [Pool.view, hbegun, hshared]
    exact (serviceReadCommitted ext resolver candidates).view_start _
  have hrunning : p.Running i := by rw [Pool.Running, hbegun]
  obtain ⟨n, hrun⟩ := run_of_runOnce hcycle
  have hservice : ((Task.runOnce batchSize).program ext).run
      (Visible.executeService ext resolver candidates) (db.visible, 0) =
        (.ok (), db'.visible, n) := by
    have hvisible := runOnceProgram_visible ext resolver batchSize db 0
    rw [hrun, ← hcandidates] at hvisible
    exact Program.run_bind_ok _ ((Program.run_inr _ _ _ _).trans hvisible)
  obtain ⟨q, hsteps, _, hcommits⟩ :=
    Pool.exists_run_alone (I := serviceReadCommitted ext resolver candidates) hrunning halone
  rw [hbegun, hview] at hcommits
  obtain ⟨hcommitted, hleft⟩ := hcommits (congrArg Prod.fst hservice)
  exact ⟨q, hsteps, hcommitted, congrArg Prod.fst (hleft.trans (congrArg Prod.snd hservice))⟩

/-- The next statement of a transaction rests on what it has been answered. -/
lemma grounds_of_step {i : ι} {c : ServiceCalls.Call}
    (run : Pool.Steps (serviceReadCommitted ext resolver candidates)
      (Pool.start (serviceReadCommitted ext resolver candidates) x fun i => (entry i).program ext)
      p) (hstep : p.Step (serviceReadCommitted ext resolver candidates) (.call i c) q) :
    (entry i).Grounds ext (p.tx i).trace c := by
  have hrest := (run.follows i).path.ensures ((entry i).program_grounds ext)
  cases hstep with
  | call running rest free answer =>
    rw [rest] at hrest
    exact hrest.1

/-- Backfills never overwrite. In every pool of `save_event` transactions and cycles of the
periodic backfill that is reached statement by statement:

* an UPDATE of either backfill rests on what its transaction has looked up and asked for, or on
  what its message announces, and sets the column of that role in rows where it is NULL, as its
  transaction sees them, and does nothing else;
* a step leaves a committed row or, if it is a commit, replaces it by one in which every user id is
  still set, and is the old one or one that an upsert or a client update of the transaction gave;
* the commit of a cycle or of a `user.synced` transaction fills NULLs and changes nothing else;
* no later state has lost a user id. -/
theorem backfills_never_overwrite
    (run : Pool.Steps (serviceReadCommitted ext resolver candidates)
      (Pool.start (serviceReadCommitted ext resolver candidates) x fun i => (entry i).program ext)
      p) :
    (∀ i c q role u, p.Step (serviceReadCommitted ext resolver candidates) (.call i c) q →
      fills c = some (role, u) → (entry i).Grounds ext (p.tx i).trace c ∧
      (q.view (serviceReadCommitted ext resolver candidates) i).1.events =
          (p.view (serviceReadCommitted ext resolver candidates) i).1.events ∧
        ∀ uid, (q.view (serviceReadCommitted ext resolver candidates) i).1.bookings uid =
            (p.view (serviceReadCommitted ext resolver candidates) i).1.bookings uid ∨
          ∃ old b,
            (p.view (serviceReadCommitted ext resolver candidates) i).1.bookings uid = some old ∧
            (q.view (serviceReadCommitted ext resolver candidates) i).1.bookings uid = some b ∧
              b.FillsColumn old u role) ∧
    (∀ a q, p.Step (serviceReadCommitted ext resolver candidates) a q → ∀ uid old,
      p.shared.1.bookings uid = some old → ∃ b, q.shared.1.bookings uid = some b ∧
        b.id = old.id ∧ ∀ role u, old.userId role = some u → ∃ u', b.userId role = some u' ∧
          (u' = u ∨ ∃ i, a = .commit i ∧
            ∃ e ∈ (p.tx i).trace, Overwrites uid b.id role u' e.1)) ∧
    (∀ i q, p.Step (serviceReadCommitted ext resolver candidates) (.commit i) q →
      (entry i).Backfills → ∀ uid, q.shared.1.bookings uid = p.shared.1.bookings uid ∨
        ∃ old b, p.shared.1.bookings uid = some old ∧ q.shared.1.bookings uid = some b ∧
          b.FillsNulls old) ∧
    ∀ q, Pool.Steps (serviceReadCommitted ext resolver candidates) p q → ∀ uid old role u,
      p.shared.1.bookings uid = some old → old.userId role = some u →
      ∃ b u', q.shared.1.bookings uid = some b ∧ b.userId role = some u' := by
  have hguarded := guarded_of_run run
  refine ⟨fun i c q role u hstep hc => ?_, fun a q hstep uid old hold => hguarded.step_kept hstep hold,
    fun i q hstep hbackfills uid => ?_, fun q hsteps uid old role u hold hu => ?_⟩
  · obtain ⟨r, hanswer⟩ := hstep.view_call
    exact ⟨grounds_of_step run hstep, Visible.executeService_fills hc hanswer⟩
  · rcases hguarded.step_row hstep uid with hsame | ⟨j, b, hj, hb, hderived⟩
    · exact .inl hsame
    · obtain rfl := Action.commit.inj hj
      have htrace := ((run.follows i).path.every hbackfills.every).1
      obtain ⟨old, hold, hfills⟩ := hderived.filled htrace
      exact .inr ⟨old, b, hold, hb, hfills⟩
  · have hkept : Guarded q ∧ ∃ b u', q.shared.1.bookings uid = some b ∧ b.userId role = some u' := by
      refine Pool.Run.invariant (P := fun q => Guarded q ∧ ∃ b u',
        q.shared.1.bookings uid = some b ∧ b.userId role = some u') hsteps
        ⟨hguarded, old, u, hold, hu⟩ ?_
      rintro p a q ⟨hp, b, u', hb, hu'⟩ _ hstep
      obtain ⟨b', hb', _, hslots⟩ := hp.step_kept hstep hb
      obtain ⟨u'', hu'', _⟩ := hslots role u' hu'
      exact ⟨hp.step hstep, b', u'', hb', hu''⟩
    exact hkept.2

end Runs

/-- A cycle of the backfill, and the creation of a booking with a resolved organizer. -/
def cycleAndCreated (i : Bool) : Task :=
  if i then .runOnce 1
  else .save 0 (.sample BOOKING_LIFECYCLE_SAVER_QUEUE "2" "b" .bookingCreated 2
    (listing [participant .organizer "a@example.org" (.str "00000000-0000-0000-0000-00000000000a")]))

/-- A booking whose organizer is not resolved. -/
def unresolvedBooking : Db :=
  (saveEvent .sample 0 (.sample BOOKING_LIFECYCLE_SAVER_QUEUE "1" "b" .bookingCreated 1
    (listing [participant .organizer "a@example.org" .null,
      participant .client "c@example.org" (.str "00000000-0000-0000-0000-00000000000b")]))
    .empty).2

/-- The cycle has read the booking as unresolved and asked for another user when the creation
commits; its UPDATE then finds a user id and leaves it. -/
theorem backfills_never_overwrite_staleCycle : ∃ p q : ServicePool Bool,
    p.Committed false ∧ q.Committed true ∧
    (cycleAndCreated true).Grounds .sample (p.tx true).trace (.inr (.fillSlot 0 .organizer ⟨12⟩)) ∧
    (p.shared.1.bookings "b").bind (·.organizerUserId) = some ⟨10⟩ ∧
    ∃ b u', q.shared.1.bookings "b" = some b ∧ b.userId .organizer = some u' := by
  let candidates : Visible → Nat → List Candidate := fun _ _ => [⟨0, "b", none, some ⟨11⟩⟩]
  let resolver : Nat → String → RecipientRole → Except Exc Resolution :=
    fun _ _ _ => .ok (.answered (some ⟨12⟩))
  let I := serviceReadCommitted .sample resolver candidates
  let start : ServicePool Bool := Pool.start I (unresolvedBooking.visible, 0) fun i =>
    (cycleAndCreated i).program .sample
  obtain ⟨p, hreads, hother, hread⟩ :=
    Pool.exists_advance (I := I) (p := start) (i := true) 3 rfl
      (fun _ _ _ => servicePasses_empty .sample resolver candidates 3 _ _) (fun _ _ _ _ => trivial)
  have htrue : p.tx true = _ := congrArg Prod.fst hread
  have hshared : p.shared = (unresolvedBooking.visible, 1) := congrArg Prod.snd hread
  have hown : (p.tx true).own = .empty := by
    rw [htrue]
    rfl
  have hfalse := hother false Bool.false_ne_true
  obtain ⟨q, hcreates, hcommitted, hother', hshared'⟩ :=
    Pool.exists_commit (I := I) (p := p) (i := false) 20 (by rw [Pool.Running, hfalse]; rfl)
      (fun j hj _ => by
        cases j with
        | false => exact absurd rfl hj
        | true => rw [hown]; exact servicePasses_empty .sample resolver candidates 20 _ _)
      (fun _ _ _ _ => trivial) (by rw [hfalse, hshared]; rfl)
  have htrue' : q.tx true = _ := (hother' true (by decide)).trans htrue
  obtain ⟨r, hfinds, hcommitted', _, _⟩ :=
    Pool.exists_commit (I := I) (p := q) (i := true) 20 (by rw [Pool.Running, htrue']; rfl)
      (fun j hj hr => by
        cases j with
        | false => rw [Pool.Running, hcommitted] at hr; cases hr
        | true => exact absurd rfl hj)
      (fun _ _ _ _ => trivial) (by rw [htrue', hshared']; rfl)
  have hrow : (q.shared.1.bookings "b").bind (·.organizerUserId) = some ⟨10⟩ := by
    rw [hshared']
    rfl
  obtain ⟨old, hold, hu⟩ := Option.bind_eq_some_iff.mp hrow
  have hfill : q.Step I (.call true (.inr (.fillSlot 0 .organizer ⟨12⟩))) _ :=
    .call (by rw [Pool.Running, htrue']; rfl) (by rw [htrue']; rfl) (fun j hj hr => by
      cases j with
      | false => rw [Pool.Running, hcommitted] at hr; cases hr
      | true => exact absurd rfl hj) rfl
  obtain ⟨hupdates, _, _, hkept⟩ := backfills_never_overwrite (hreads.trans hcreates)
  exact ⟨q, r, hcommitted, hcommitted', (hupdates true _ _ .organizer ⟨12⟩ hfill rfl).1, hrow,
    hkept r hfinds "b" old .organizer _ hold hu⟩

end EventSaver
