import Mathlib.Logic.Relation
import EventSaver.BookingRecord
import EventSaver.ProjectionRows
import EventSaver.BackfillPaths

/-!
# The organizer of a booking

The column `organizer_user_id` of one booking in every state that its lifecycle events, events of
other bookings, announcements of users and cycles of the periodic backfill lead to, where the
statements of the cycles interleave with everything else.
-/

namespace EventSaver
open JsonData TableData EffectProgram

/-- An UPDATE of a cycle, and the events that were stored when the cycle last looked up an
e-mail. -/
structure Fill where
  id : Nat
  role : RecipientRole
  userId : Uuid
  looked : List EventRow

/-- A cycle in flight: what is left of it, the slots it has filled without having committed, and
the events that were stored when it last looked up an e-mail. No other transaction writes a row
with an uncommitted update, so that its updates may be thought of as made at the commit. Nothing
depends on `looked`, which records what the updates rest on. -/
structure OpenCycle where
  rest : Cycle BackfillSummary
  fills : List Fill
  looked : List EventRow

structure Site where
  db : Db
  cycles : List OpenCycle

namespace Site

def initial : Site := ⟨.empty, []⟩

end Site

/-- The slot a call of a cycle fills. -/
def CycleCall.fills (looked : List EventRow) : CycleCall → List Fill
  | .fillSlot id role userId => [⟨id, role, userId, looked⟩]
  | _ => []

/-- The events at the last look-up of an e-mail, once a call has been answered. -/
def CycleCall.looked (looked stored : List EventRow) : CycleCall → List EventRow
  | .selectLatestEmail _ _ => stored
  | _ => looked

/-- The bookings after the updates of a cycle. -/
def commitFills (fills : List Fill) (db : Db) : Db :=
  fills.foldl (fun db fill =>
    { db with
      tables.bookings := fillSlot fill.id fill.role fill.userId db.tables.bookings }) db

section Steps

variable (ext : Externals) (truth : String → RecipientRole → Option Uuid) (uid : String)

/-- What the statements and requests of a cycle are answered. A resolver that is reached answers
with the true id of the user or with none. -/
def CycleCall.Answers (db : Db) : (c : CycleCall) → c.Reply → Prop
  | .selectCandidates batchSize, rows =>
    rows = (EventSaver.selectCandidates db.tables.bookings batchSize).map BookingRow.candidate
  | .selectLatestEmail bookingUid role, email =>
    email = latestEmail ext db.tables.events bookingUid role
  | .resolve email role, resolution =>
    ∀ u, resolution = .answered (some u) → truth email role = some u
  | .fillSlot _ _ _, _ => True

/-- A message is not older than what is stored of its booking. -/
def Message.InOrder (now : Timestamp) (m : Message) (db : Db) : Prop :=
  ∀ time, EventParser.parseOccurredAt ext now m.time = .ok time →
    ∀ e ∈ db.tables.events, e.FiledUnder uid → e.occurredAt ≤ time

/-- One step: a save attempt, or one statement of a cycle. -/
inductive Site.Step : Site → Site → Prop
  | lifecycle (s : Site) (fault : Fault Exc) (now : Timestamp) (m : Message)
    (hm : m.LifecycleOf uid) (horder : m.InOrder ext uid now s.db) :
    Step s { s with db := (saveEventUnder ext fault now m s.db).2 }
  | synced (s : Site) (fault : Fault Exc) (now : Timestamp) (m : Message)
    (hm : m.eventType = EventType.userSynced.value) :
    Step s { s with db := (saveEventUnder ext fault now m s.db).2 }
  | other (s : Site) (fault : Fault Exc) (now : Timestamp) (m : Message)
    (hm : m.eventType ≠ EventType.userSynced.value) (hother : m.bookingId ≠ some uid) :
    Step s { s with db := (saveEventUnder ext fault now m s.db).2 }
  | start (s : Site) (batchSize : Nat) :
    Step s { s with
      cycles := s.cycles ++ [⟨UserIdBackfillService.runOnceProgram batchSize, [], []⟩] }
  | statement (db : Db) (before after : List OpenCycle) (c : CycleCall)
    (next : c.Reply → Cycle BackfillSummary) (fills : List Fill) (looked : List EventRow)
    (reply : c.Reply) (hreply : c.Answers ext truth db reply) :
    Step ⟨db, before ++ ⟨.call (S := CycleCalls) c next, fills, looked⟩ :: after⟩
      ⟨db, before ++
        ⟨next reply, fills ++ c.fills looked, c.looked looked db.tables.events⟩ :: after⟩
  | commit (db : Db) (before after : List OpenCycle) (summary : BackfillSummary)
    (fills : List Fill) (looked : List EventRow) :
    Step ⟨db, before ++ ⟨.pure summary, fills, looked⟩ :: after⟩
      ⟨commitFills fills db, before ++ after⟩
  | rollback (db : Db) (before after : List OpenCycle) (cycle : OpenCycle) :
    Step ⟨db, before ++ cycle :: after⟩ ⟨db, before ++ after⟩

/-- The organizers with an id that stored events of a booking list, with the time of the
event. -/
def resolvedOrganizers (events : List EventRow) : List (Timestamp × Uuid) :=
  events.filterMap fun e =>
    if e.bookingId = some uid ∧ e.eventType ≠ EventType.userSynced.value then
      match ParticipantExtractor.extract ext e.payload with
      | .ok (some u, _) => some (e.occurredAt, u)
      | _ => none
    else none

/-- The organizer of the latest event that lists one with an id. -/
def lastResolved (events : List EventRow) : Option Uuid :=
  (newest Prod.fst (resolvedOrganizers ext uid events)).map Prod.snd

/-- The id in the organizer column of a booking. -/
def Db.organizerOf (db : Db) (uid : String) : Option Uuid :=
  (db.bookingOf uid).bind (·.organizerUserId)

/-- A stored `user.synced` event announces the id of the user with an e-mail and a role. -/
def EventRow.Announces (e : EventRow) (email : String) (role : RecipientRole) (u : Uuid) : Prop :=
  e.eventType = EventType.userSynced.value ∧
    IngestEvent.Announces ext e.payload (.str email) (.str role.value) u

/-- An id a `user.synced` event may give to an organizer of the booking: that of an e-mail which
some stored event lists for the role. -/
def Db.AnnouncesOrganizer (db : Db) (u : Uuid) : Prop :=
  ∃ email, (∃ e ∈ db.tables.events, e.Announces ext email .organizer u) ∧
    ∃ e ∈ db.tables.events, e.Mentions ext uid .organizer email

/-- An id a cycle may give to a user of a booking: the true one of the e-mail that the latest event
listing one for the role lists, as of the events that were stored at the look-up. -/
def Db.LookedUp (db : Db) (bookingUid : String) (role : RecipientRole) (looked : List EventRow)
    (u : Uuid) : Prop :=
  looked <+: db.tables.events ∧
    ∃ email, ListedLast ext looked bookingUid role email ∧ truth email role = some u

/-- An id one of the two backfills may give to an organizer of the booking. -/
def Db.FindsOrganizer (db : Db) (u : Uuid) : Prop :=
  db.AnnouncesOrganizer ext uid u ∨ ∃ looked, db.LookedUp ext truth uid .organizer looked u

/-- The column shows the organizer of the latest event that lists one with an id. Before there is
such an event it is empty or shows what a backfill has found. -/
def Db.ShowsOrganizer (db : Db) : Prop :=
  match lastResolved ext uid db.tables.events with
  | some u => db.organizerOf uid = some u
  | none => ∀ u, db.organizerOf uid = some u → db.FindsOrganizer ext truth uid u

/-- The cycles in flight have written nothing into the organizer column of the booking but what
they have looked up. -/
def Site.LooksUp (s : Site) : Prop :=
  ∀ cycle ∈ s.cycles, ∀ fill ∈ cycle.fills, s.db.Located uid fill.id → fill.role = .organizer →
    s.db.LookedUp ext truth uid .organizer fill.looked fill.userId

end Steps

section Cycles

variable (ext : Externals) (truth : String → RecipientRole → Option Uuid)

/-- The update of a slot of a booking with what has been looked up for it. -/
def Db.Justifies (db : Db) (fill : Fill) : Prop :=
  ∃ bookingUid, db.Located bookingUid fill.id ∧
    db.LookedUp ext truth bookingUid fill.role fill.looked fill.userId

/-- What the answers to a cycle tell about the database for good, and the events at the last
look-up after them. -/
def CycleCall.Tells (db : Db) (looked : List EventRow) :
    (c : CycleCall) → c.Reply → List EventRow → Prop
  | .selectCandidates _, rows, looked' =>
    looked' = looked ∧ ∀ row ∈ rows, db.Located row.bookingUid row.id
  | .selectLatestEmail bookingUid role, email?, looked' =>
    looked' <+: db.tables.events ∧ email? = latestEmail ext looked' bookingUid role
  | .resolve email role, resolution, looked' =>
    looked' = looked ∧ ∀ u, resolution = .answered (some u) → truth email role = some u
  | .fillSlot _ _ _, _, looked' => looked' = looked

/-- A call that fills nothing but justified slots. -/
def CycleCall.Justified (db : Db) (looked : List EventRow) (c : CycleCall) : Prop :=
  ∀ fill ∈ c.fills looked, db.Justifies ext truth fill

/-- The cached answers are true. -/
def Tally.Truthful (tally : Tally) : Prop :=
  ∀ email role u, tally.cache.lookup (email, role) = some (some u) → truth email role = some u

variable {ext truth} {db : Db} {looked : List EventRow}

lemma resolve_ensures (email : String) (role : RecipientRole) {tally : Tally}
    (h : tally.Truthful truth) :
    (UserIdBackfillService.resolve email role tally).Ensures (CycleCall.Tells ext truth db)
      (CycleCall.Justified ext truth db) (fun looked' out => looked' = looked ∧
        out.1.Truthful truth ∧ ∀ u, out.2 = .answered (some u) → truth email role = some u)
      looked := by
  unfold UserIdBackfillService.resolve
  cases hcached : tally.cache.lookup (email, role) with
  | some answer =>
    refine ⟨rfl, h, fun u hu => ?_⟩
    cases hu
    exact h email role u hcached
  | none =>
    refine ⟨nofun, fun resolution looked' htells => ?_⟩
    obtain ⟨hlooked, htrue⟩ := htells
    cases resolution with
    | unavailable => exact ⟨hlooked, h, nofun⟩
    | answered answer =>
      refine ⟨hlooked, fun email' role' u hu => ?_, htrue⟩
      rw [List.lookup_cons] at hu
      by_cases hkey : (email', role') = (email, role)
      · obtain ⟨rfl, rfl⟩ := Prod.mk.inj hkey
        rw [beq_self_eq_true] at hu
        exact htrue u (congrArg Resolution.answered (Option.some.inj hu))
      · rw [beq_eq_false_iff_ne.mpr hkey] at hu
        exact h email' role' u hu

lemma backfillSlot_ensures {row : Candidate} (role : RecipientRole) {tally : Tally}
    (hrow : db.Located row.bookingUid row.id) (h : tally.Truthful truth) :
    (UserIdBackfillService.backfillSlot row role tally).Ensures (CycleCall.Tells ext truth db)
      (CycleCall.Justified ext truth db) (fun _ out => out.1.Truthful truth) looked := by
  unfold UserIdBackfillService.backfillSlot
  refine ⟨nofun, fun email? looked' htells => ?_⟩
  obtain ⟨hlooked, hemail⟩ := htells
  cases email? with
  | none => exact h
  | some email =>
    refine (resolve_ensures email role h).bind fun _ out hout => ?_
    obtain ⟨tally', resolution⟩ := out
    obtain ⟨rfl, htally, htrue⟩ := hout
    match resolution with
    | .unavailable => exact htally
    | .answered none => exact htally
    | .answered (some userId) =>
      refine ⟨?_, fun _ _ _ => htally⟩
      intro fill hfill
      rw [List.mem_singleton.mp hfill]
      exact ⟨row.bookingUid, hrow, hlooked, email, latestEmail_listedLast hemail.symm,
        htrue userId rfl⟩

/-- A cycle fills no slot that its answers do not justify. -/
theorem runOnceProgram_ensures (batchSize : Nat) :
    (UserIdBackfillService.runOnceProgram batchSize).Ensures (CycleCall.Tells ext truth db)
      (CycleCall.Justified ext truth db) (fun _ _ => True) looked := by
  have hslots (slots : List (Candidate × RecipientRole)) (tally : Tally) (looked : List EventRow)
      (hrows : ∀ slot ∈ slots, db.Located slot.1.bookingUid slot.1.id)
      (htally : tally.Truthful truth) :
      (UserIdBackfillService.backfillSlots slots tally).Ensures (CycleCall.Tells ext truth db)
        (CycleCall.Justified ext truth db) (fun _ _ => True) looked := by
    induction slots generalizing tally looked with
    | nil => trivial
    | cons slot rest ih =>
      rw [List.forall_mem_cons] at hrows
      refine (backfillSlot_ensures slot.2 hrows.1 htally).bind fun looked out hout => ?_
      obtain ⟨tally', unavailable⟩ := out
      cases unavailable with
      | true => trivial
      | false => exact ih tally' looked hrows.2 hout
  unfold UserIdBackfillService.runOnceProgram
  refine ⟨nofun, fun rows looked' htells => ?_⟩
  refine (hslots _ .zero looked' ?_ ?_).bind fun _ out _ => trivial
  · intro slot hslot
    rw [UserIdBackfillService.slots, List.mem_flatMap] at hslot
    obtain ⟨row, hrow, hslot⟩ := hslot
    obtain ⟨role, _, rfl⟩ := List.mem_map.mp hslot
    exact htells.2 row hrow
  · intro email role u hu
    cases hu

end Cycles

section Growth

/-- Bookings keep their ids, and events are not deleted. -/
structure Db.GrowsTo (db db' : Db) : Prop where
  located : ∀ bookingUid ref, db.Located bookingUid ref → db'.Located bookingUid ref
  events : db.tables.events <+: db'.tables.events

variable {ext : Externals} {truth : String → RecipientRole → Option Uuid} {db db' db'' : Db}

namespace Db.GrowsTo

lemma refl (db : Db) : db.GrowsTo db := ⟨fun _ _ h => h, List.prefix_rfl⟩

lemma trans (h : db.GrowsTo db') (h' : db'.GrowsTo db'') : db.GrowsTo db'' where
  located bookingUid ref hloc := h'.located bookingUid ref (h.located bookingUid ref hloc)
  events := h.events.trans h'.events

lemma announcesOrganizer (h : db.GrowsTo db') {uid : String} {u : Uuid}
    (hu : db.AnnouncesOrganizer ext uid u) : db'.AnnouncesOrganizer ext uid u := by
  obtain ⟨email, ⟨e, he, hannounces⟩, e', he', hmentions⟩ := hu
  exact ⟨email, ⟨e, h.events.subset he, hannounces⟩, e', h.events.subset he', hmentions⟩

lemma lookedUp (h : db.GrowsTo db') {bookingUid : String} {role : RecipientRole}
    {looked : List EventRow} {u : Uuid} (hu : db.LookedUp ext truth bookingUid role looked u) :
    db'.LookedUp ext truth bookingUid role looked u :=
  ⟨hu.1.trans h.events, hu.2⟩

lemma findsOrganizer (h : db.GrowsTo db') {uid : String} {u : Uuid}
    (hu : db.FindsOrganizer ext truth uid u) : db'.FindsOrganizer ext truth uid u :=
  hu.imp h.announcesOrganizer fun ⟨looked, hlooked⟩ => ⟨looked, h.lookedUp hlooked⟩

lemma justifies (h : db.GrowsTo db') {fill : Fill} (hfill : db.Justifies ext truth fill) :
    db'.Justifies ext truth fill := by
  obtain ⟨bookingUid, hloc, hlooked⟩ := hfill
  exact ⟨bookingUid, h.located _ _ hloc, h.lookedUp hlooked⟩

/-- A save attempt lets the database grow. -/
lemma save (ext : Externals) (fault : Fault Exc) (now : Timestamp) (m : Message) (db : Db) :
    db.GrowsTo (saveEventUnder ext fault now m db).2 := by
  rcases saveEventUnder_cases ext fault now m db with heffect | htables
  · obtain ⟨event, _, hingest⟩ := bind_eq_ok.mp heffect
    refine ⟨?_, ?_⟩
    · unfold ingestEffect at hingest
      split at hingest
      · rw [← Except.ok.inj hingest]
        exact fun _ _ h => h
      · have hinsert : db.Keeps event.eventId (EventSaver.insertRow event db) := .insertRow event
        exact (hinsert.trans (.process hingest)).located
    · rw [ingestEffect_events ext hingest]
      exact List.prefix_append _ _
  · have hkeeps : db.Keeps "" (saveEventUnder ext fault now m db).2 := .of_tables_eq htables
    exact ⟨hkeeps.located, by rw [htables]⟩

/-- The update of a slot keeps what other rows refer to. -/
lemma fill (fill : Fill) (db : Db) :
    db.GrowsTo { db with
      tables.bookings := fillSlot fill.id fill.role fill.userId db.tables.bookings } := by
  have hkeeps : db.Keeps "" { db with
      tables.bookings := fillSlot fill.id fill.role fill.userId db.tables.bookings } :=
    .updateBookings _ _ fun b => b.setUserId_bookingUid fill.role fill.userId
  exact ⟨hkeeps.located, List.prefix_rfl⟩

end Db.GrowsTo

/-- What an answer tells stays true. -/
lemma CycleCall.Tells.mono {looked looked' : List EventRow} {c : CycleCall} {reply : c.Reply}
    (h : c.Tells ext truth db looked reply looked') (hgrows : db.GrowsTo db') :
    c.Tells ext truth db' looked reply looked' := by
  cases c with
  | selectCandidates batchSize =>
    exact ⟨h.1, fun row hrow => hgrows.located _ _ (h.2 row hrow)⟩
  | selectLatestEmail bookingUid role => exact ⟨h.1.trans hgrows.events, h.2⟩
  | resolve email role => exact h
  | fillSlot id role userId => exact h

/-- An answer tells the truth. -/
lemma CycleCall.Answers.tells (hwf : db.WellFormed) {looked : List EventRow} {c : CycleCall}
    {reply : c.Reply} (h : c.Answers ext truth db reply) :
    c.Tells ext truth db looked reply (c.looked looked db.tables.events) := by
  cases c with
  | selectCandidates batchSize =>
    refine ⟨rfl, fun row hrow => ?_⟩
    rw [CycleCall.Answers] at h
    rw [h] at hrow
    obtain ⟨b, hb, rfl⟩ := List.mem_map.mp hrow
    exact ⟨b, find?_eq_some_of_mem hwf.uids (mem_of_mem_selectCandidates hb), rfl⟩
  | selectLatestEmail bookingUid role => exact ⟨List.prefix_rfl, h⟩
  | resolve email role => exact ⟨rfl, h⟩
  | fillSlot id role userId => rfl

/-- A cycle in flight that has filled and will fill justified slots only. -/
structure OpenCycle.Sound (ext : Externals) (truth : String → RecipientRole → Option Uuid)
    (cycle : OpenCycle) (db : Db) : Prop where
  rest : ∀ db', db.GrowsTo db' → cycle.rest.Ensures (CycleCall.Tells ext truth db')
    (CycleCall.Justified ext truth db') (fun _ _ => True) cycle.looked
  fills : ∀ fill ∈ cycle.fills, db.Justifies ext truth fill

lemma OpenCycle.Sound.mono {cycle : OpenCycle} (h : cycle.Sound ext truth db)
    (hgrows : db.GrowsTo db') : cycle.Sound ext truth db' where
  rest db'' hgrows' := h.rest db'' (hgrows.trans hgrows')
  fills fill hfill := hgrows.justifies (h.fills fill hfill)

end Growth

section Column

variable {ext : Externals} {truth : String → RecipientRole → Option Uuid} {uid : String}
  {db db' : Db}

/-- The column may stay, or be filled with an id a backfill finds, while no event with a new one
is stored. -/
lemma Db.ShowsOrganizer.keep (h : db.ShowsOrganizer ext truth uid) (hgrows : db.GrowsTo db')
    (hlast : lastResolved ext uid db'.tables.events = lastResolved ext uid db.tables.events)
    (hkeep : ∀ u, db.organizerOf uid = some u → db'.organizerOf uid = some u)
    (hfill : ∀ u, db'.organizerOf uid = some u →
      db.organizerOf uid = some u ∨ db'.FindsOrganizer ext truth uid u) :
    db'.ShowsOrganizer ext truth uid := by
  unfold Db.ShowsOrganizer at h ⊢
  rw [hlast]
  cases hresolved : lastResolved ext uid db.tables.events with
  | some u =>
    rw [hresolved] at h
    exact hkeep u h
  | none =>
    rw [hresolved] at h
    intro u hu
    rcases hfill u hu with hu | hfinds
    · exact hgrows.findsOrganizer (h u hu)
    · exact hfinds

/-- What is justified has been looked up for the booking whose row is filled. -/
lemma Db.Justifies.lookedUp (hwf : db.WellFormed) {fill : Fill} (h : db.Justifies ext truth fill)
    (hloc : db.Located uid fill.id) :
    db.LookedUp ext truth uid fill.role fill.looked fill.userId := by
  obtain ⟨bookingUid, ⟨b', hb', hid'⟩, hlooked⟩ := h
  obtain ⟨b, hb, hid⟩ := hloc
  have hsame : b = b' := List.inj_on_of_nodup_map hwf.ids (List.mem_of_find?_eq_some hb)
    (List.mem_of_find?_eq_some hb') (hid.trans hid'.symm)
  have huid : b.bookingUid = uid := by simpa using List.find?_some hb
  have huid' : b'.bookingUid = bookingUid := by simpa using List.find?_some hb'
  rw [← huid, hsame, huid']
  exact hlooked

/-- The update of a justified slot keeps the column right. -/
lemma Db.ShowsOrganizer.fill (h : db.ShowsOrganizer ext truth uid) (hwf : db.WellFormed)
    {fill : Fill} (hfill : db.Justifies ext truth fill) :
    { db with
      tables.bookings :=
        fillSlot fill.id fill.role fill.userId db.tables.bookings }.ShowsOrganizer ext truth
          uid := by
  have hgrows := Db.GrowsTo.fill fill db
  obtain ⟨id, role, userId, looked⟩ := fill
  have hfind : findBooking uid (fillSlot id role userId db.tables.bookings) =
      (findBooking uid db.tables.bookings).map fun b =>
        if b.id == id && b.userId role == none then b.update (·.setUserId role userId) else b :=
    find?_updateWhere fun b => by simp
  refine h.keep hgrows rfl ?_ ?_
  · intro u hu
    obtain ⟨b, hb, hu⟩ := Option.bind_eq_some_iff.mp hu
    obtain ⟨row, hrow, rfl⟩ := Option.map_eq_some_iff.mp hb
    rw [Db.organizerOf, Db.bookingOf, hfind, hrow, Option.map_some, Option.map_some, Option.bind_some]
    cases role with
    | organizer =>
      have hfull : (row.userId .organizer == none) = false := by
        rw [Booking.userId, hu]
        rfl
      rw [hfull, Bool.and_false, if_neg Bool.false_ne_true]
      exact hu
    | client =>
      split
      · exact hu
      · exact hu
  · intro u hu
    rw [Db.organizerOf, Db.bookingOf, hfind] at hu
    cases hrow : findBooking uid db.tables.bookings with
    | none =>
      rw [hrow] at hu
      cases hu
    | some row =>
      rw [hrow, Option.map_some, Option.map_some, Option.bind_some] at hu
      by_cases hcond : (row.id == id && row.userId role == none) = true
      · rw [if_pos hcond] at hu
        have hid : row.id = id := by
          simp only [Bool.and_eq_true, beq_iff_eq] at hcond
          exact hcond.1
        cases role with
        | organizer =>
          obtain rfl : userId = u := Option.some.inj hu
          have hlooked := hfill.lookedUp hwf ⟨row, hrow, hid⟩
          exact .inr (.inr ⟨looked, hgrows.lookedUp hlooked⟩)
        | client =>
          refine .inl ?_
          rw [Db.organizerOf, Db.bookingOf, hrow]
          exact hu
      · rw [if_neg hcond] at hu
        refine .inl ?_
        rw [Db.organizerOf, Db.bookingOf, hrow]
        exact hu

/-- The events of the booking are stored in the order of time. -/
def Db.Ordered (uid : String) (db : Db) : Prop :=
  db.tables.events.Pairwise fun e e' =>
    e.FiledUnder uid → e'.FiledUnder uid → e.occurredAt ≤ e'.occurredAt

lemma resolvedOrganizers_append (events : List EventRow) (e : EventRow) :
    resolvedOrganizers ext uid (events ++ [e]) =
      resolvedOrganizers ext uid events ++ resolvedOrganizers ext uid [e] :=
  List.filterMap_append

/-- An event that is not filed under the booking lists none of its organizers. -/
lemma resolvedOrganizers_other {e : EventRow}
    (he : ¬ (e.bookingId = some uid ∧ e.eventType ≠ EventType.userSynced.value)) :
    resolvedOrganizers ext uid [e] = [] := by
  rw [resolvedOrganizers, List.filterMap_cons, if_neg he]
  rfl

lemma resolvedOrganizers_sorted (huid : uid ≠ "") (h : db.Ordered uid) :
    (resolvedOrganizers ext uid db.tables.events).Pairwise fun x y => x.1 ≤ y.1 := by
  rw [resolvedOrganizers, List.pairwise_filterMap]
  have hsome (e : EventRow) (x : Timestamp × Uuid)
      (hx : (if e.bookingId = some uid ∧ e.eventType ≠ EventType.userSynced.value then
          match ParticipantExtractor.extract ext e.payload with
          | .ok (some u, _) => some (e.occurredAt, u)
          | _ => none
        else none) = some x) : e.FiledUnder uid ∧ x.1 = e.occurredAt := by
    split at hx
    next hfiled =>
      split at hx
      · cases hx
        exact ⟨⟨hfiled.1, huid, hfiled.2⟩, rfl⟩
      · cases hx
    next => cases hx
  refine h.imp fun {e e'} hle x hx y hy => ?_
  obtain ⟨hfiled, hx⟩ := hsome e x hx
  obtain ⟨hfiled', hy⟩ := hsome e' y hy
  rw [hx, hy]
  exact hle hfiled hfiled'

variable {now : Timestamp} {m : Message} {event : ParsedEvent}

/-- A stored lifecycle event of the booking keeps the order and the column right. -/
lemma Db.ShowsOrganizer.lifecycle (h : db.ShowsOrganizer ext truth uid) (hwf : db.WellFormed)
    (hordered : db.Ordered uid) (hgrows : db.GrowsTo db') (hm : m.LifecycleOf uid)
    (horder : m.InOrder ext uid now db) (hparse : EventParser.parse ext now m = .ok event)
    (hd : isDuplicate event db = false) (he : saveEffect ext now m db = .ok db')
    (hevents : db'.tables.events = db.tables.events ++ [EventRepository.row event]) :
    db'.Ordered uid ∧ db'.ShowsOrganizer ext truth uid := by
  obtain ⟨hbooking, htype, _⟩ := EventParser.parse_filed ext hparse
  have hordered' : db'.Ordered uid := by
    rw [Db.Ordered, hevents, List.pairwise_append]
    refine ⟨hordered, List.pairwise_singleton _ _, fun e he e' he' hfiled _ => ?_⟩
    rw [List.mem_singleton.mp he']
    exact horder _ (EventParser.parse_occurredAt ext hparse) e he hfiled
  obtain ⟨event', hparse', hwork⟩ := bookingOf_filed hwf hm.toFiledUnder he
  obtain rfl : event = event' := Except.ok.inj (hparse.symm.trans hparse')
  rw [if_neg (Bool.eq_false_iff.mp hd)] at hwork
  obtain ⟨work, hplan, hrow, _⟩ := hwork
  have hunknown : bookingKnown m.queueName db uid = false := by
    rw [bookingKnown, hm.queueName]
    simp
  rw [hunknown] at hplan
  obtain ⟨carried, organizer, client, hextract, _, hjoin, _, _, horganizer⟩ := plan_onRow hplan
  have hcolumn : db'.organizerOf uid = organizer.or (db.organizerOf uid) := by
    rw [Db.organizerOf, hrow, hjoin, Option.bind_some, Db.organizerOf, ← horganizer]
    cases db.bookingOf uid with
    | none => exact (Option.or_none).symm
    | some row => rfl
  have hlisted : resolvedOrganizers ext uid [EventRepository.row event] =
      (organizer.map fun u => (event.occurredAt, u)).toList := by
    have hfiled : (EventRepository.row event).bookingId = some uid ∧
        (EventRepository.row event).eventType ≠ EventType.userSynced.value :=
      ⟨hbooking.trans hm.bookingId, fun heq => hm.notSynced (htype.symm.trans heq)⟩
    have hpayload : ParticipantExtractor.extract ext (EventRepository.row event).payload =
        .ok (organizer, client) := hextract
    rw [resolvedOrganizers, List.filterMap_cons, if_pos hfiled, hpayload]
    cases organizer <;> rfl
  refine ⟨hordered', ?_⟩
  cases organizer with
  | none =>
    have hlast : lastResolved ext uid db'.tables.events = lastResolved ext uid db.tables.events := by
      rw [lastResolved, hevents, resolvedOrganizers_append, hlisted, Option.map_none,
        Option.toList_none, List.append_nil, lastResolved]
    rw [Option.none_or] at hcolumn
    exact h.keep hgrows hlast (fun u hu => hcolumn.trans hu) fun u hu => .inl (hcolumn.symm.trans hu)
  | some u =>
    have hlast : lastResolved ext uid db'.tables.events = some u := by
      rw [lastResolved, newest_eq_getLast? (resolvedOrganizers_sorted hm.nonempty hordered'), hevents,
        resolvedOrganizers_append, hlisted, Option.map_some, Option.toList_some,
        List.getLast?_append, List.getLast?_singleton]
      rfl
    rw [Db.ShowsOrganizer, hlast]
    exact hcolumn

/-- A stored event that is not filed under the booking keeps the order, and the column when what
it does to the booking is right. -/
lemma Db.ShowsOrganizer.elsewhere (h : db.ShowsOrganizer ext truth uid) (hordered : db.Ordered uid)
    (hgrows : db.GrowsTo db') (hparse : EventParser.parse ext now m = .ok event)
    (helsewhere : ¬ (m.bookingId = some uid ∧ m.eventType ≠ EventType.userSynced.value))
    (hevents : db'.tables.events = db.tables.events ++ [EventRepository.row event])
    (hkeep : ∀ u, db.organizerOf uid = some u → db'.organizerOf uid = some u)
    (hfill : ∀ u, db'.organizerOf uid = some u →
      db.organizerOf uid = some u ∨ db'.FindsOrganizer ext truth uid u) :
    db'.Ordered uid ∧ db'.ShowsOrganizer ext truth uid := by
  obtain ⟨hbooking, htype, _⟩ := EventParser.parse_filed ext hparse
  have hrow : ¬ ((EventRepository.row event).bookingId = some uid ∧
      (EventRepository.row event).eventType ≠ EventType.userSynced.value) := by
    rintro ⟨hid, hother⟩
    exact helsewhere ⟨hbooking.symm.trans hid, fun heq => hother (htype.trans heq)⟩
  refine ⟨?_, h.keep hgrows ?_ hkeep hfill⟩
  · rw [Db.Ordered, hevents, List.pairwise_append]
    refine ⟨hordered, List.pairwise_singleton _ _, fun e _ e' he' _ hfiled => ?_⟩
    rw [List.mem_singleton.mp he'] at hfiled
    exact absurd ⟨hfiled.1, hfiled.2.2⟩ hrow
  · rw [lastResolved, hevents, resolvedOrganizers_append, resolvedOrganizers_other hrow,
      List.append_nil, lastResolved]

lemma backfillRequest_eq_some {payload : Json} {role : RecipientRole} {email : String} {u : Uuid}
    (h : backfillRequest ext payload = .ok (some (role, some email, u))) :
    IngestEvent.syncedUser ext payload = .ok (.str email, .str role.value, u) := by
  obtain ⟨⟨emailValue, roleValue, u'⟩, huser, h⟩ := bind_eq_ok.mp h
  obtain ⟨column, hcolumn, h⟩ := bind_eq_ok.mp h
  cases column with
  | none => cases h
  | some column =>
    obtain ⟨email', hemail, h⟩ := bind_eq_ok.mp h
    cases h
    have hemailValue : emailValue = .str email := by
      cases emailValue with
      | str s =>
        have heq : some s = some email := Except.ok.inj hemail
        rw [Option.some.inj heq]
      | _ => cases hemail
    rw [huser, hemailValue, BookingRepository.roleColumn_eq_some hcolumn]

/-- An announcement of a user fills the column with the id it announces of a listed organizer
only. -/
lemma Db.ShowsOrganizer.synced (h : db.ShowsOrganizer ext truth uid) (hordered : db.Ordered uid)
    (hgrows : db.GrowsTo db') (hm : m.eventType = EventType.userSynced.value)
    (hparse : EventParser.parse ext now m = .ok event)
    (hd : isDuplicate event db = false) (he : saveEffect ext now m db = .ok db')
    (hevents : db'.tables.events = db.tables.events ++ [EventRepository.row event]) :
    db'.Ordered uid ∧ db'.ShowsOrganizer ext truth uid := by
  have hunfiled : ∀ uid, ¬ m.FiledUnder uid := fun uid hfiled => hfiled.notSynced hm
  obtain ⟨event', hparse', hwork⟩ := bookingOf_unfiled hunfiled he
  obtain rfl : event = event' := Except.ok.inj (hparse.symm.trans hparse')
  rw [if_neg (Bool.eq_false_iff.mp hd), if_pos hm] at hwork
  obtain ⟨request, hrequest, hrows⟩ := hwork
  have helsewhere : ¬ (m.bookingId = some uid ∧ m.eventType ≠ EventType.userSynced.value) :=
    fun hfiled => hfiled.2 hm
  have hrow := hrows uid
  have hsame (hbooking : db'.bookingOf uid = db.bookingOf uid) :
      db'.Ordered uid ∧ db'.ShowsOrganizer ext truth uid := by
    have hcolumn : db'.organizerOf uid = db.organizerOf uid := by
      rw [Db.organizerOf, hbooking, Db.organizerOf]
    exact h.elsewhere hordered hgrows hparse helsewhere hevents (fun u hu => hcolumn.trans hu)
      fun u hu => .inl (hcolumn.symm.trans hu)
  match request with
  | none => exact hsame (hrow.trans Option.map_id')
  | some (role, none, u) => exact hsame (hrow.trans Option.map_id')
  | some (role, some email, userId) =>
    have hannounces : (EventRepository.row event).Announces ext email role userId :=
      ⟨(EventParser.parse_filed ext hparse).2.1.trans hm,
        IngestEvent.announces_of_syncedUser ext (backfillRequest_eq_some hrequest)⟩
    have hmem : EventRepository.row event ∈ db'.tables.events := by
      rw [hevents]
      exact List.mem_append_right _ List.mem_cons_self
    cases hbooking : db.bookingOf uid with
    | none =>
      rw [hbooking] at hrow
      exact hsame (hrow.trans hbooking.symm)
    | some b =>
      have hb : b.bookingUid = uid := by
        obtain ⟨row, hfind, rfl⟩ := Option.map_eq_some_iff.mp hbooking
        simpa using List.find?_some hfind
      rw [hbooking, Option.map_some] at hrow
      have hbefore : db.organizerOf uid = b.organizerUserId := by
        rw [Db.organizerOf, hbooking, Option.bind_some]
      have hafter : db'.organizerOf uid = (b.backfilled ext db'.tables.events
          (some (role, some email, userId))).organizerUserId := by
        rw [Db.organizerOf, hrow, Option.bind_some]
      rw [Booking.backfilled, hb] at hafter
      by_cases hcond : (b.userId role == none &&
          participantListed ext db'.tables.events uid role email) = true
      · rw [if_pos hcond] at hafter
        rw [Bool.and_eq_true, beq_iff_eq] at hcond
        obtain ⟨hnull, hlisted⟩ := hcond
        cases role with
        | organizer =>
          refine h.elsewhere hordered hgrows hparse helsewhere hevents (fun u hu => ?_) fun u hu => ?_
          · rw [hbefore] at hu
            exact absurd (hnull.symm.trans hu) (Option.some_ne_none u).symm
          · obtain rfl : userId = u := Option.some.inj (hafter.symm.trans hu)
            exact .inr (.inl ⟨email, ⟨_, hmem, hannounces⟩, participantListed_iff.mp hlisted⟩)
        | client =>
          have hcolumn : db'.organizerOf uid = db.organizerOf uid := hafter.trans hbefore.symm
          exact h.elsewhere hordered hgrows hparse helsewhere hevents (fun u hu => hcolumn.trans hu)
            fun u hu => .inl (hcolumn.symm.trans hu)
      · rw [if_neg hcond] at hafter
        have hcolumn : db'.organizerOf uid = db.organizerOf uid := hafter.trans hbefore.symm
        exact h.elsewhere hordered hgrows hparse helsewhere hevents (fun u hu => hcolumn.trans hu)
          fun u hu => .inl (hcolumn.symm.trans hu)

/-- An event of another booking, or of none, does nothing to the column. -/
lemma Db.ShowsOrganizer.other (h : db.ShowsOrganizer ext truth uid) (hwf : db.WellFormed)
    (hordered : db.Ordered uid) (hgrows : db.GrowsTo db')
    (hm : m.eventType ≠ EventType.userSynced.value) (hother : m.bookingId ≠ some uid)
    (hparse : EventParser.parse ext now m = .ok event) (hd : isDuplicate event db = false)
    (he : saveEffect ext now m db = .ok db')
    (hevents : db'.tables.events = db.tables.events ++ [EventRepository.row event]) :
    db'.Ordered uid ∧ db'.ShowsOrganizer ext truth uid := by
  have hbooking : db'.bookingOf uid = db.bookingOf uid := by
    by_cases hfiled : ∃ uid', m.FiledUnder uid'
    · obtain ⟨uid', hfiled⟩ := hfiled
      obtain ⟨event', hparse', hwork⟩ := bookingOf_filed hwf hfiled he
      obtain rfl : event = event' := Except.ok.inj (hparse.symm.trans hparse')
      rw [if_neg (Bool.eq_false_iff.mp hd)] at hwork
      obtain ⟨_, _, _, hothers⟩ := hwork
      refine hothers uid ?_
      rintro rfl
      exact hother hfiled.bookingId
    · obtain ⟨event', hparse', hwork⟩ := bookingOf_unfiled (not_exists.mp hfiled) he
      obtain rfl : event = event' := Except.ok.inj (hparse.symm.trans hparse')
      rw [if_neg (Bool.eq_false_iff.mp hd), if_neg hm] at hwork
      exact hwork uid
  have hcolumn : db'.organizerOf uid = db.organizerOf uid := by
    rw [Db.organizerOf, hbooking, Db.organizerOf]
  exact h.elsewhere hordered hgrows hparse (fun hfiled => hother hfiled.1) hevents
    (fun u hu => hcolumn.trans hu) fun u hu => .inl (hcolumn.symm.trans hu)

end Column

section Invariant

variable {ext : Externals} {truth : String → RecipientRole → Option Uuid} {uid : String}

/-- The invariant of the interleaved runs. -/
structure Site.Holds (ext : Externals) (truth : String → RecipientRole → Option Uuid)
    (uid : String) (s : Site) : Prop where
  wellFormed : s.db.WellFormed
  ordered : s.db.Ordered uid
  organizer : s.db.ShowsOrganizer ext truth uid
  cycles : ∀ cycle ∈ s.cycles, cycle.Sound ext truth s.db

namespace Site.Holds

lemma initial : Site.initial.Holds ext truth uid where
  wellFormed := .empty
  ordered := List.Pairwise.nil
  organizer := by
    intro u hu
    cases hu
  cycles cycle hcycle := by cases hcycle

/-- A save attempt keeps the invariant if a new event does. -/
lemma save {s : Site} (h : s.Holds ext truth uid) {fault : Fault Exc} {now : Timestamp}
    {m : Message}
    (hnew : ∀ event db', EventParser.parse ext now m = .ok event → isDuplicate event s.db = false →
      saveEffect ext now m s.db = .ok db' → s.db.GrowsTo db' →
      db'.tables.events = s.db.tables.events ++ [EventRepository.row event] →
      db'.Ordered uid ∧ db'.ShowsOrganizer ext truth uid) :
    { s with db := (saveEventUnder ext fault now m s.db).2 }.Holds ext truth uid := by
  have hgrows := Db.GrowsTo.save ext fault now m s.db
  have hkept : (saveEventUnder ext fault now m s.db).2.Ordered uid ∧
      (saveEventUnder ext fault now m s.db).2.ShowsOrganizer ext truth uid := by
    have hunchanged (db' : Db) (htables : db'.tables = s.db.tables) :
        db'.Ordered uid ∧ db'.ShowsOrganizer ext truth uid := by
      have hordered := h.ordered
      have horganizer := h.organizer
      unfold Db.Ordered Db.ShowsOrganizer Db.FindsOrganizer Db.AnnouncesOrganizer Db.LookedUp
        Db.organizerOf Db.bookingOf at *
      rw [htables]
      exact ⟨hordered, horganizer⟩
    rcases saveEventUnder_cases ext fault now m s.db with heffect | htables
    · obtain ⟨event, hparse, hingest⟩ := bind_eq_ok.mp heffect
      have hevents := ingestEffect_events ext hingest
      cases hd : isDuplicate event s.db with
      | true =>
        rw [ingestEffect, if_pos hd] at hingest
        exact hunchanged _ (congrArg Db.tables (Except.ok.inj hingest).symm)
      | false =>
        rw [hd] at hevents
        exact hnew event _ hparse hd heffect hgrows hevents
    · exact hunchanged _ htables
  exact {
    wellFormed := h.wellFormed.saveEventUnder ext fault now m
    ordered := hkept.1
    organizer := hkept.2
    cycles := fun cycle hcycle => (h.cycles cycle hcycle).mono hgrows }

/-- The updates of a cycle keep the invariant. -/
lemma commitFills {db : Db} {cycles : List OpenCycle} (h : Site.Holds ext truth uid ⟨db, cycles⟩)
    (fills : List Fill)
    (hfills : ∀ fill ∈ fills, db.Justifies ext truth fill) :
    Site.Holds ext truth uid ⟨commitFills fills db, cycles⟩ := by
  induction fills generalizing db with
  | nil => exact h
  | cons fill rest ih =>
    rw [List.forall_mem_cons] at hfills
    have hgrows := Db.GrowsTo.fill fill db
    refine ih ?_ fun fill' hfill' => hgrows.justifies (hfills.2 fill' hfill')
    exact {
      wellFormed := h.wellFormed.updateBookings _ _ fun b =>
        b.setUserId_bookingUid fill.role fill.userId
      ordered := h.ordered
      organizer := h.organizer.fill h.wellFormed hfills.1
      cycles := fun cycle hcycle => (h.cycles cycle hcycle).mono hgrows }

theorem step {s s' : Site} (h : s.Holds ext truth uid) (hstep : Site.Step ext truth uid s s') :
    s'.Holds ext truth uid := by
  cases hstep with
  | lifecycle _ fault now m hm horder =>
    exact h.save fun event db' hparse hd he hgrows hevents =>
      h.organizer.lifecycle h.wellFormed h.ordered hgrows hm horder hparse hd he hevents
  | synced _ fault now m hm =>
    exact h.save fun event db' hparse hd he hgrows hevents =>
      h.organizer.synced h.ordered hgrows hm hparse hd he hevents
  | other _ fault now m hm hother =>
    exact h.save fun event db' hparse hd he hgrows hevents =>
      h.organizer.other h.wellFormed h.ordered hgrows hm hother hparse hd he hevents
  | start _ batchSize =>
    refine { h with cycles := fun cycle hcycle => ?_ }
    rcases List.mem_append.mp hcycle with hcycle | hcycle
    · exact h.cycles cycle hcycle
    · rw [List.mem_singleton.mp hcycle]
      exact ⟨fun db' _ => runOnceProgram_ensures batchSize, nofun⟩
  | statement db before after c next fills looked reply hreply =>
    have hopen := h.cycles _ (List.mem_append_right before List.mem_cons_self)
    have htells : c.Tells ext truth db looked reply (c.looked looked db.tables.events) :=
      hreply.tells h.wellFormed
    refine { h with cycles := fun cycle hcycle => ?_ }
    rcases List.mem_append.mp hcycle with hcycle | hcycle
    · exact h.cycles cycle (List.mem_append_left _ hcycle)
    · rcases List.mem_cons.mp hcycle with rfl | hcycle
      · refine ⟨fun db' hgrows =>
          (hopen.rest db' hgrows).2 reply _ (htells.mono hgrows), ?_⟩
        intro fill hfill
        rcases List.mem_append.mp hfill with hfill | hfill
        · exact hopen.fills fill hfill
        · exact (hopen.rest db (.refl db)).1 fill hfill
      · exact h.cycles cycle (List.mem_append_right _ (List.mem_cons_of_mem _ hcycle))
  | commit db before after summary fills looked =>
    have hopen := h.cycles _ (List.mem_append_right before List.mem_cons_self)
    have hcommitted := h.commitFills fills hopen.fills
    refine { hcommitted with cycles := fun cycle hcycle => hcommitted.cycles cycle ?_ }
    rcases List.mem_append.mp hcycle with hcycle | hcycle
    · exact List.mem_append_left _ hcycle
    · exact List.mem_append_right _ (List.mem_cons_of_mem _ hcycle)
  | rollback db before after cycle =>
    refine { h with cycles := fun cycle hcycle => h.cycles cycle ?_ }
    rcases List.mem_append.mp hcycle with hcycle | hcycle
    · exact List.mem_append_left _ hcycle
    · exact List.mem_append_right _ (List.mem_cons_of_mem _ hcycle)

end Site.Holds

/-- In every state of an interleaved run the column shows the organizer of the latest event that
lists one with an id, and before there is one nothing but what a backfill has found. What a cycle
has written into it is the id of the e-mail that was the latest when the cycle looked it up. -/
theorem organizer_shown {s : Site}
    (h : Relation.ReflTransGen (Site.Step ext truth uid) Site.initial s) :
    s.db.ShowsOrganizer ext truth uid ∧ s.LooksUp ext truth uid := by
  have hholds : s.Holds ext truth uid := by
    induction h with
    | refl => exact .initial
    | tail _ hstep ih => exact ih.step hstep
  refine ⟨hholds.organizer, fun cycle hcycle fill hfill hloc hrole => ?_⟩
  have hlooked := ((hholds.cycles cycle hcycle).fills fill hfill).lookedUp hholds.wellFormed hloc
  rwa [hrole] at hlooked

end Invariant

/-- The ids of two organizers. -/
def twoOrganizers (email : String) (role : RecipientRole) : Option Uuid :=
  if role = .organizer then
    if email = "a@example.org" then some ⟨10⟩
    else if email = "b@example.org" then some ⟨11⟩
    else none
  else none

/-- A creation by an organizer with or without an id. -/
def createdByFirst (userId : Json) : Message :=
  .sample BOOKING_LIFECYCLE_SAVER_QUEUE "1" "b" .bookingCreated 1
    (listing [participant .organizer "a@example.org" userId])

/-- A reassignment to an organizer without an id. -/
def reassignedToSecond : Message :=
  .sample BOOKING_LIFECYCLE_SAVER_QUEUE "2" "b" .bookingReassigned 2
    (listing [participant .organizer "b@example.org" .null])

/-- The database after the two. -/
def afterReassignment (userId : Json) : Db :=
  (saveEvent .sample 0 reassignedToSecond (saveEvent .sample 0 (createdByFirst userId) .empty).2).2

lemma reachable_afterReassignment (userId : Json)
    (hstored : ∀ e ∈ (saveEvent .sample 0 (createdByFirst userId) .empty).2.tables.events,
      e.occurredAt ≤ 2) :
    Relation.ReflTransGen (Site.Step .sample twoOrganizers "b") Site.initial
      ⟨afterReassignment userId, []⟩ := by
  have htype : EventType.bookingCreated.value ≠ EventType.userSynced.value := by decide
  have hcreated : (createdByFirst userId).LifecycleOf "b" := ⟨⟨rfl, by decide, htype⟩, rfl⟩
  have hreassigned : reassignedToSecond.LifecycleOf "b" := ⟨⟨rfl, by decide, by decide⟩, rfl⟩
  have hfirst : Site.Step .sample twoOrganizers "b" Site.initial
      ⟨(saveEvent .sample 0 (createdByFirst userId) .empty).2, []⟩ :=
    .lifecycle Site.initial .none 0 (createdByFirst userId) hcreated fun _ _ e he => by cases he
  have hsecond : Site.Step .sample twoOrganizers "b"
      ⟨(saveEvent .sample 0 (createdByFirst userId) .empty).2, []⟩
      ⟨afterReassignment userId, []⟩ := by
    refine .lifecycle _ .none 0 reassignedToSecond hreassigned fun time htime e he _ => ?_
    cases htime
    exact hstored e he
  exact (Relation.ReflTransGen.single hfirst).tail hsecond

/-- A cycle that has looked up the e-mail after the reassignment, neither organizer having an
id, and has written the id of the second. -/
lemma reachable_lookUp : ∃ rest, Relation.ReflTransGen (Site.Step .sample twoOrganizers "b")
    Site.initial ⟨afterReassignment .null,
      [⟨rest, [⟨0, .organizer, ⟨11⟩, (afterReassignment .null).tables.events⟩],
        (afterReassignment .null).tables.events⟩]⟩ := by
  have hdb := reachable_afterReassignment .null (by decide)
  have hstart := hdb.tail (.start _ 1)
  have hcandidates := hstart.tail
    (.statement _ [] [] (.selectCandidates 1) _ [] [] [⟨0, "b", none, none⟩] rfl)
  have hemail := hcandidates.tail
    (.statement _ [] [] (.selectLatestEmail "b" .organizer) _ [] [] (some "b@example.org") rfl)
  have hresolve := hemail.tail
    (.statement _ [] [] (.resolve "b@example.org" .organizer) _ [] _ (.answered (some ⟨11⟩))
      fun u hu => by cases hu; rfl)
  exact ⟨_, hresolve.tail (.statement _ [] [] (.fillSlot 0 .organizer ⟨11⟩) _ [] _ () trivial)⟩

/-- The cycle writes the organizer of the reassignment. -/
theorem organizer_shown_lookUp : ∃ s,
    Relation.ReflTransGen (Site.Step .sample twoOrganizers "b") Site.initial s ∧
      ∃ cycle ∈ s.cycles, ∃ fill ∈ cycle.fills, fill.userId = ⟨11⟩ ∧
        s.db.LookedUp .sample twoOrganizers "b" .organizer fill.looked fill.userId := by
  obtain ⟨rest, hreachable⟩ := reachable_lookUp
  refine ⟨_, hreachable, _, List.mem_cons_self, _, List.mem_cons_self, rfl, ?_⟩
  have hlocated : (afterReassignment .null).Located "b" 0 := ⟨_, rfl, by decide⟩
  exact (organizer_shown hreachable).2 _ List.mem_cons_self _ List.mem_cons_self hlocated rfl

/-- The reassignment leaves the organizer it replaces in place. -/
theorem replaced_organizer_shown : ∃ s,
    Relation.ReflTransGen (Site.Step .sample twoOrganizers "b") Site.initial s ∧
      latestEmail .sample s.db.tables.events "b" .organizer = some "b@example.org" ∧
      twoOrganizers "b@example.org" .organizer = some ⟨11⟩ ∧
      s.db.organizerOf "b" = some ⟨10⟩ :=
  ⟨⟨afterReassignment (.str "00000000-0000-0000-0000-00000000000a"), []⟩,
    reachable_afterReassignment _ (by decide), by decide, by decide, by decide⟩

end EventSaver
