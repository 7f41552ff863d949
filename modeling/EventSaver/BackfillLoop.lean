import EventSaver.Library.Runs
import EventSaver.UserIdBackfill

/-!
# The loop of the periodic backfill

A cycle completes the empty slots of its window in their order, up to the first one whose request
the resolver leaves unanswered, and commits what it has completed. Cache, counters and table all
follow from the slots completed and the requests answered so far; this is the invariant of the
loop.
-/

namespace EventSaver
open JsonData TableData EffectProgram

section Visits

variable (ext : Externals) (resolve : String → RecipientRole → Option Uuid)

/-- The id a cycle finds for a role of a booking. -/
def foundUserId (events : List EventRow) (bookingUid : String) (role : RecipientRole) :
    Option Uuid :=
  (latestEmail ext events bookingUid role).bind fun email => resolve email role

/-- A bookings row after a visit to one slot. -/
def visitRow (events : List EventRow) (b : BookingRow) (slot : Candidate × RecipientRole) :
    BookingRow :=
  match foundUserId ext resolve events slot.1.bookingUid slot.2 with
  | some userId =>
    if b.id == slot.1.id && b.userId slot.2 == none then b.update (·.setUserId slot.2 userId) else b
  | none => b

/-- The slots a cycle visits. -/
def cycleSlots (batchSize : Nat) (db : Db) : List (Candidate × RecipientRole) :=
  UserIdBackfillService.slots
    ((selectCandidates db.tables.bookings batchSize).map BookingRow.candidate)

/-- The bookings after a visit to every slot of a list. -/
def visitAll (slots : List (Candidate × RecipientRole)) (db : Db) : Db :=
  { db with
    tables.bookings :=
      db.tables.bookings.map fun b => slots.foldl (visitRow ext resolve db.tables.events) b }

end Visits

/-- A call of a cycle with its answer. -/
abbrev AnsweredCall := Σ c, CycleCalls.Reply c

/-- The requests to the resolver, with their answers. -/
def requests (calls : List AnsweredCall) : List ((String × RecipientRole) × Resolution) :=
  calls.filterMap fun
    | ⟨.resolve email role, resolution⟩ => some ((email, role), resolution)
    | _ => none

/-- The slots whose e-mail is looked up. -/
def lookups (calls : List AnsweredCall) : List (String × RecipientRole) :=
  calls.filterMap fun
    | ⟨.selectLatestEmail bookingUid role, _⟩ => some (bookingUid, role)
    | _ => none

/-- The id that requests have obtained for an e-mail under a role. -/
def obtained (asked : List ((String × RecipientRole) × Resolution)) (email : String)
    (role : RecipientRole) : Option Uuid :=
  match asked.lookup (email, role) with
  | some (.answered userId) => userId
  | _ => none

/-- A resolver that answers every request or is unavailable, as it likes. -/
def responding (answer : Nat → String → RecipientRole → Resolution) :
    Nat → String → RecipientRole → Except Exc Resolution :=
  fun n email role => .ok (answer n email role)

section Invariant

variable (ext : Externals) (answer : Nat → String → RecipientRole → Resolution) (db : Db)

/-- The counters count the slots of a list by what is found for them. -/
structure Tally.Counts (resolve : String → RecipientRole → Option Uuid) (events : List EventRow)
    (done : List (Candidate × RecipientRole)) (tally : Tally) : Prop where
  resolved : tally.resolved = done.countP fun slot =>
    (foundUserId ext resolve events slot.1.bookingUid slot.2).isSome
  unresolved : tally.unresolved = done.countP fun slot =>
    (latestEmail ext events slot.1.bookingUid slot.2).isSome &&
      (foundUserId ext resolve events slot.1.bookingUid slot.2).isNone
  missingEmail : tally.missingEmail = done.countP fun slot =>
    (latestEmail ext events slot.1.bookingUid slot.2).isNone

/-- The requests made so far are distinct, and those of the completed slots are answered. -/
structure Visited (done : List (Candidate × RecipientRole))
    (asked : List ((String × RecipientRole) × Resolution)) : Prop where
  answers : ∀ i key resolution, asked[i]? = some (key, resolution) →
    answer i key.1 key.2 = resolution
  once : (asked.map Prod.fst).Nodup
  completed : ∀ slot ∈ done, ∀ email,
    latestEmail ext db.tables.events slot.1.bookingUid slot.2 = some email →
      ∃ userId, ((email, slot.2), .answered userId) ∈ asked

/-- The invariant of the loop over the slots: cache, counters and table are those of the slots
completed and the requests answered. -/
structure Progress (done : List (Candidate × RecipientRole))
    (asked : List ((String × RecipientRole) × Resolution)) (tally : Tally) (s : Db × Nat) : Prop
    extends Visited ext answer db done asked where
  state : s = (visitAll ext (obtained asked) done db, asked.length)
  counts : tally.Counts ext (obtained asked) db.tables.events done
  cached : ∀ key userId, tally.cache.lookup key = some userId ↔ (key, .answered userId) ∈ asked
  answered : ∀ request ∈ asked, request.2 ≠ .unavailable

/-- Where the loop ends: behind the last slot, or at a slot whose request is not answered. -/
structure LoopEnd (done rest : List (Candidate × RecipientRole))
    (asked : List ((String × RecipientRole) × Resolution)) (tally : Tally) (aborted : Bool)
    (db' : Db) : Prop extends Visited ext answer db done asked where
  committed : db' = visitAll ext (obtained asked) done db
  counts : tally.Counts ext (obtained asked) db.tables.events done
  aborted_iff : aborted = true ↔ rest ≠ []
  stopped : ∀ slot ∈ rest.head?, ∃ email,
    latestEmail ext db.tables.events slot.1.bookingUid slot.2 = some email ∧
      ((email, slot.2), .unavailable) ∈ asked

end Invariant

section Requests

variable {asked : List ((String × RecipientRole) × Resolution)} {email : String}
  {role : RecipientRole}

lemma obtained_of_mem {userId : Option Uuid} (h : (asked.map Prod.fst).Nodup)
    (hmem : ((email, role), .answered userId) ∈ asked) : obtained asked email role = userId := by
  rw [obtained, lookup_of_mem h hmem]

/-- An id has been obtained exactly if a request has been answered by it. -/
lemma obtained_eq_some {userId : Uuid} (h : (asked.map Prod.fst).Nodup) :
    obtained asked email role = some userId ↔
      ((email, role), .answered (some userId)) ∈ asked := by
  constructor
  · intro hobtained
    rw [obtained] at hobtained
    split at hobtained
    · rename_i answered hlookup
      subst hobtained
      obtain ⟨before, after, hasked, _⟩ := List.lookup_eq_some_iff.mp hlookup
      rw [hasked]
      exact List.mem_append_right _ List.mem_cons_self
    · cases hobtained
  · exact obtained_of_mem h

lemma requests_lookup (bookingUid : String) (role : RecipientRole) (answer : Option String)
    (calls : List AnsweredCall) :
    requests (⟨.selectLatestEmail bookingUid role, answer⟩ :: calls) = requests calls := rfl

lemma lookups_lookup (bookingUid : String) (role : RecipientRole) (answer : Option String)
    (calls : List AnsweredCall) :
    lookups (⟨.selectLatestEmail bookingUid role, answer⟩ :: calls) =
      (bookingUid, role) :: lookups calls := rfl

lemma requests_fill (id : Nat) (role : RecipientRole) (userId : Uuid) :
    requests [⟨.fillSlot id role userId, ()⟩] = [] := rfl

lemma requests_append (calls rest : List AnsweredCall) :
    requests (calls ++ rest) = requests calls ++ requests rest :=
  List.filterMap_append

lemma lookups_append (calls rest : List AnsweredCall) :
    lookups (calls ++ rest) = lookups calls ++ lookups rest :=
  List.filterMap_append

end Requests

section Steps

variable {ext : Externals} {answer : Nat → String → RecipientRole → Resolution} {db : Db}
  {done : List (Candidate × RecipientRole)} {slot : Candidate × RecipientRole}
  {asked : List ((String × RecipientRole) × Resolution)} {tally tally' : Tally} {s : Db × Nat}
  {key : String × RecipientRole} {resolution : Resolution}

lemma visitAll_single (ext : Externals) (resolve : String → RecipientRole → Option Uuid)
    (slot : Candidate × RecipientRole) (db : Db) :
    visitAll ext resolve [slot] db =
      match foundUserId ext resolve db.tables.events slot.1.bookingUid slot.2 with
      | some userId =>
        { db with tables.bookings := fillSlot slot.1.id slot.2 userId db.tables.bookings }
      | none => db := by
  have hrows : (visitAll ext resolve [slot] db).tables.bookings =
      db.tables.bookings.map fun b => visitRow ext resolve db.tables.events b slot := rfl
  cases hfound : foundUserId ext resolve db.tables.events slot.1.bookingUid slot.2 with
  | some userId =>
    simp only [visitAll, List.foldl_cons, List.foldl_nil, visitRow, hfound]
    rfl
  | none =>
    simp only [visitAll, List.foldl_cons, List.foldl_nil, visitRow, hfound, List.map_id']

lemma visitAll_bookings (ext : Externals) (resolve : String → RecipientRole → Option Uuid)
    (slots : List (Candidate × RecipientRole)) (db : Db) :
    (visitAll ext resolve slots db).tables.bookings =
      db.tables.bookings.map fun b => slots.foldl (visitRow ext resolve db.tables.events) b := rfl

lemma visitAll_events (ext : Externals) (resolve : String → RecipientRole → Option Uuid)
    (slots : List (Candidate × RecipientRole)) (db : Db) :
    (visitAll ext resolve slots db).tables.events = db.tables.events := rfl

lemma visitAll_append (ext : Externals) (resolve : String → RecipientRole → Option Uuid)
    (done rest : List (Candidate × RecipientRole)) (db : Db) :
    visitAll ext resolve (done ++ rest) db =
      visitAll ext resolve rest (visitAll ext resolve done db) := by
  simp only [visitAll, List.map_map, List.foldl_append]
  rfl

lemma visitAll_congr {resolve resolve' : String → RecipientRole → Option Uuid}
    (h : ∀ slot ∈ done, foundUserId ext resolve db.tables.events slot.1.bookingUid slot.2 =
      foundUserId ext resolve' db.tables.events slot.1.bookingUid slot.2) :
    visitAll ext resolve done db = visitAll ext resolve' done db := by
  have hrow (b : BookingRow) : done.foldl (visitRow ext resolve db.tables.events) b =
      done.foldl (visitRow ext resolve' db.tables.events) b := by
    induction done generalizing b with
    | nil => rfl
    | cons slot rest ih =>
      rw [List.forall_mem_cons] at h
      have hslot : visitRow ext resolve db.tables.events b slot =
          visitRow ext resolve' db.tables.events b slot := by
        rw [visitRow, visitRow, h.1]
      rw [List.foldl_cons, List.foldl_cons, hslot]
      exact ih h.2 _
  simp only [visitAll, hrow]

lemma Tally.Counts.congr {resolve resolve' : String → RecipientRole → Option Uuid}
    {events : List EventRow} (hcounts : tally.Counts ext resolve events done)
    (h : ∀ slot ∈ done, foundUserId ext resolve events slot.1.bookingUid slot.2 =
      foundUserId ext resolve' events slot.1.bookingUid slot.2) :
    tally.Counts ext resolve' events done := by
  constructor
  · rw [hcounts.resolved]
    exact List.countP_congr fun slot hslot => by rw [h slot hslot]
  · rw [hcounts.unresolved]
    exact List.countP_congr fun slot hslot => by rw [h slot hslot]
  · exact hcounts.missingEmail

/-- One more slot, counted by what is found for it. -/
lemma Tally.Counts.concat {resolve : String → RecipientRole → Option Uuid}
    {events : List EventRow} (hcounts : tally.Counts ext resolve events done)
    (h : tally'.Counts ext resolve events [slot]) :
    Tally.Counts ext resolve events (done ++ [slot])
      { tally with
        resolved := tally.resolved + tally'.resolved
        unresolved := tally.unresolved + tally'.unresolved
        missingEmail := tally.missingEmail + tally'.missingEmail } := by
  constructor
  · rw [List.countP_append, ← hcounts.resolved, ← h.resolved]
  · rw [List.countP_append, ← hcounts.unresolved, ← h.unresolved]
  · rw [List.countP_append, ← hcounts.missingEmail, ← h.missingEmail]

/-- Every completed slot is counted once. -/
lemma Tally.Counts.total {resolve : String → RecipientRole → Option Uuid} {events : List EventRow}
    {tally : Tally} (h : tally.Counts ext resolve events done) :
    tally.resolved + tally.unresolved + tally.missingEmail = done.length := by
  rw [h.resolved, h.unresolved, h.missingEmail]
  clear h
  induction done with
  | nil => rfl
  | cons slot rest ih =>
    rw [List.countP_cons, List.countP_cons, List.countP_cons, List.length_cons, ← ih]
    cases hemail : latestEmail ext events slot.1.bookingUid slot.2 with
    | none =>
      have hfound : foundUserId ext resolve events slot.1.bookingUid slot.2 = none := by
        rw [foundUserId, hemail, Option.bind_none]
      simp only [hfound, Option.isSome_none, Option.isNone_none, Bool.false_and, if_true,
        Bool.false_eq_true, if_false]
      omega
    | some email =>
      cases foundUserId ext resolve events slot.1.bookingUid slot.2 with
      | none =>
        simp only [Option.isSome_none, Option.isSome_some, Option.isNone_none, Option.isNone_some,
          Bool.and_self, if_true, Bool.false_eq_true, if_false]
        omega
      | some userId =>
        simp only [Option.isSome_some, Option.isNone_some, Bool.and_false, if_true,
          Bool.false_eq_true, if_false]
        omega

/-- One more request, not made before. -/
lemma Visited.ask (h : Visited ext answer db done asked) (hfresh : key ∉ asked.map Prod.fst)
    (hanswer : answer asked.length key.1 key.2 = resolution) :
    Visited ext answer db done (asked ++ [(key, resolution)]) where
  answers i key' resolution' hi := by
    rcases lt_trichotomy i asked.length with hlt | rfl | hgt
    · rw [List.getElem?_append_left hlt] at hi
      exact h.answers i key' resolution' hi
    · rw [List.getElem?_concat_length] at hi
      cases hi
      exact hanswer
    · rw [List.getElem?_eq_none (by simp; omega)] at hi
      cases hi
  once := by
    rw [List.map_append, List.nodup_append]
    refine ⟨h.once, List.nodup_singleton _, ?_⟩
    rintro key' hkey' _ hmem rfl
    rw [List.map_singleton, List.mem_singleton] at hmem
    rw [hmem] at hkey'
    exact hfresh hkey'
  completed slot hslot email hemail := by
    obtain ⟨userId, hmem⟩ := h.completed slot hslot email hemail
    exact ⟨userId, List.mem_append_left _ hmem⟩

/-- Further requests do not change what has been found for the completed slots. -/
lemma Visited.found_append {more : List ((String × RecipientRole) × Resolution)}
    (h : Visited ext answer db done asked) (honce : ((asked ++ more).map Prod.fst).Nodup) :
    ∀ slot ∈ done,
      foundUserId ext (obtained asked) db.tables.events slot.1.bookingUid slot.2 =
        foundUserId ext (obtained (asked ++ more)) db.tables.events slot.1.bookingUid slot.2 := by
  intro slot hslot
  unfold foundUserId
  cases hemail : latestEmail ext db.tables.events slot.1.bookingUid slot.2 with
  | none => rfl
  | some email =>
    obtain ⟨userId, hmem⟩ := h.completed slot hslot email hemail
    rw [Option.bind_some, Option.bind_some, obtained_of_mem h.once hmem,
      obtained_of_mem honce (List.mem_append_left more hmem)]

/-- One more completed slot. -/
lemma Visited.concat (h : Visited ext answer db done asked)
    (hslot : ∀ email, latestEmail ext db.tables.events slot.1.bookingUid slot.2 = some email →
      ∃ userId, ((email, slot.2), .answered userId) ∈ asked) :
    Visited ext answer db (done ++ [slot]) asked where
  answers := h.answers
  once := h.once
  completed other hother := by
    rcases List.mem_append.mp hother with hother | hother
    · exact h.completed other hother
    · rw [List.mem_singleton] at hother
      subst hother
      exact hslot

/-- A key that is not in the cache has not been asked for. -/
lemma Progress.fresh (h : Progress ext answer db done asked tally s)
    (hlookup : tally.cache.lookup key = none) : key ∉ asked.map Prod.fst := by
  intro hmem
  obtain ⟨⟨key', resolution⟩, hrequest, rfl⟩ := List.mem_map.mp hmem
  cases resolution with
  | answered userId =>
    rw [(h.cached _ userId).mpr hrequest] at hlookup
    cases hlookup
  | unavailable => exact h.answered _ hrequest rfl

lemma Progress.start (ext : Externals) (answer : Nat → String → RecipientRole → Resolution)
    (db : Db) : Progress ext answer db [] [] .zero (db, 0) where
  answers i key resolution h := by cases h
  once := List.nodup_nil
  completed slot h := by cases h
  state := by
    simp only [visitAll, List.foldl_nil, List.map_id']
    rfl
  counts := ⟨rfl, rfl, rfl⟩
  cached key userId := by
    constructor
    · intro h
      cases h
    · intro h
      cases h
  answered request h := by cases h

/-- A request that is answered goes into the cache. -/
lemma Progress.ask {userId : Option Uuid} (h : Progress ext answer db done asked tally s)
    (hfresh : tally.cache.lookup key = none)
    (hanswer : answer asked.length key.1 key.2 = .answered userId) :
    Progress ext answer db done (asked ++ [(key, .answered userId)])
      { tally with cache := (key, userId) :: tally.cache } (s.1, s.2 + 1) := by
  have hnew : key ∉ asked.map Prod.fst := h.fresh hfresh
  have hvisited := h.toVisited.ask hnew hanswer
  have hfound := h.toVisited.found_append hvisited.once
  refine { hvisited with state := ?_, counts := ?_, cached := ?_, answered := ?_ }
  · rw [h.state, visitAll_congr hfound, List.length_append, List.length_singleton]
  · exact ⟨(h.counts.congr hfound).resolved, (h.counts.congr hfound).unresolved,
      h.counts.missingEmail⟩
  · intro key' userId'
    rw [List.lookup_cons, List.mem_append, List.mem_singleton]
    by_cases hkey : key' = key
    · subst hkey
      rw [beq_self_eq_true]
      constructor
      · intro heq
        cases heq
        exact Or.inr rfl
      · rintro (hmem | heq)
        · exact absurd (List.mem_map_of_mem hmem) hnew
        · cases heq
          rfl
    · rw [beq_eq_false_iff_ne.mpr hkey, h.cached]
      refine ⟨Or.inl, ?_⟩
      rintro (hmem | heq)
      · exact hmem
      · cases heq
        exact absurd rfl hkey
  · intro request hrequest
    rcases List.mem_append.mp hrequest with hrequest | hrequest
    · exact h.answered request hrequest
    · rw [List.mem_singleton] at hrequest
      subst hrequest
      intro h
      cases h

/-- A slot is completed by an update if an id is found for it. -/
lemma Progress.complete {one : Tally} (h : Progress ext answer db done asked tally s)
    (hslot : ∀ email, latestEmail ext db.tables.events slot.1.bookingUid slot.2 = some email →
      ∃ userId, ((email, slot.2), .answered userId) ∈ asked)
    (hone : one.Counts ext (obtained asked) db.tables.events [slot]) :
    Progress ext answer db (done ++ [slot]) asked
      { tally with
        resolved := tally.resolved + one.resolved
        unresolved := tally.unresolved + one.unresolved
        missingEmail := tally.missingEmail + one.missingEmail }
      (visitAll ext (obtained asked) [slot] s.1, s.2) :=
  { h.toVisited.concat hslot with
    state := by rw [h.state, visitAll_append]
    counts := h.counts.concat hone
    cached := h.cached
    answered := h.answered }

/-- A slot for which nothing is found. -/
lemma Progress.skip {one : Tally} (h : Progress ext answer db done asked tally s)
    (hslot : ∀ email, latestEmail ext db.tables.events slot.1.bookingUid slot.2 = some email →
      ∃ userId, ((email, slot.2), .answered userId) ∈ asked)
    (hone : one.Counts ext (obtained asked) db.tables.events [slot])
    (hfound : foundUserId ext (obtained asked) db.tables.events slot.1.bookingUid slot.2 = none) :
    Progress ext answer db (done ++ [slot]) asked
      { tally with
        resolved := tally.resolved + one.resolved
        unresolved := tally.unresolved + one.unresolved
        missingEmail := tally.missingEmail + one.missingEmail } s := by
  have hnext := h.complete hslot hone
  rw [visitAll_single, h.state, visitAll_events, hfound] at hnext
  rw [h.state]
  exact hnext

/-- A slot for which an id is found. -/
lemma Progress.fill {one : Tally} {userId : Uuid} (h : Progress ext answer db done asked tally s)
    (hslot : ∀ email, latestEmail ext db.tables.events slot.1.bookingUid slot.2 = some email →
      ∃ userId, ((email, slot.2), .answered userId) ∈ asked)
    (hone : one.Counts ext (obtained asked) db.tables.events [slot])
    (hfound : foundUserId ext (obtained asked) db.tables.events slot.1.bookingUid slot.2 =
      some userId) :
    Progress ext answer db (done ++ [slot]) asked
      { tally with
        resolved := tally.resolved + one.resolved
        unresolved := tally.unresolved + one.unresolved
        missingEmail := tally.missingEmail + one.missingEmail }
      ({ s.1 with
          tables.bookings := fillSlot slot.1.id slot.2 userId s.1.tables.bookings }, s.2) := by
  have hnext := h.complete hslot hone
  rw [visitAll_single, h.state, visitAll_events, hfound] at hnext
  rw [h.state]
  exact hnext

end Steps

section Runs

variable {ext : Externals} {answer : Nat → String → RecipientRole → Resolution} {db : Db}
  {done : List (Candidate × RecipientRole)}
  {asked : List ((String × RecipientRole) × Resolution)} {tally : Tally} {s : Db × Nat}

/-- An e-mail that is not cached is asked for, and cached if the request is answered. If it is
not, the loop ends at the slot that needs the answer. -/
lemma Progress.resolve (h : Progress ext answer db done asked tally s) (email : String)
    (role : RecipientRole) :
    ∃ calls tally' resolution s',
      (UserIdBackfillService.resolve email role tally).Runs (cycleExecute ext (responding answer))
        s calls (tally', resolution) s' ∧ lookups calls = [] ∧
      match resolution with
      | .answered userId =>
        Progress ext answer db done (asked ++ requests calls) tally' s' ∧
          ((email, role), .answered userId) ∈ asked ++ requests calls
      | .unavailable =>
        ∀ slot rest, slot.2 = role →
          latestEmail ext db.tables.events slot.1.bookingUid slot.2 = some email →
          LoopEnd ext answer db done (slot :: rest) (asked ++ requests calls) tally' true s'.1 := by
  unfold UserIdBackfillService.resolve
  cases hlookup : tally.cache.lookup (email, role) with
  | some userId =>
    have hmem := (h.cached _ userId).mp hlookup
    refine ⟨[], tally, .answered userId, s, Program.Runs.pure _ s, rfl, ?_, ?_⟩
    · rwa [requests, List.filterMap_nil, List.append_nil]
    · rwa [requests, List.filterMap_nil, List.append_nil]
  | none =>
    have hcall : cycleExecute ext (responding answer) (.resolve email role) s =
        .ok (answer asked.length email role, (s.1, s.2 + 1)) := by
      rw [h.state]
      rfl
    cases hanswer : answer asked.length email role with
    | answered userId =>
      rw [hanswer] at hcall
      refine ⟨_, _, .answered userId, _, Program.Runs.call hcall (Program.Runs.pure _ _), rfl,
        h.ask hlookup hanswer, ?_⟩
      exact List.mem_append_right _ (List.mem_singleton_self _)
    | unavailable =>
      rw [hanswer] at hcall
      refine ⟨_, _, .unavailable, _, Program.Runs.call hcall (Program.Runs.pure _ _), rfl, ?_⟩
      intro slot rest hrole hemail
      have hvisited := h.toVisited.ask (h.fresh hlookup) hanswer
      have hfound := h.toVisited.found_append hvisited.once
      refine { hvisited with committed := ?_, counts := ?_, aborted_iff := ?_, stopped := ?_ }
      · rw [h.state]
        exact visitAll_congr hfound
      · exact h.counts.congr hfound
      · exact iff_of_true rfl (List.cons_ne_nil slot rest)
      · intro other hother
        cases hother
        refine ⟨email, hemail, ?_⟩
        rw [hrole]
        exact List.mem_append_right _ (List.mem_singleton_self _)

/-- A slot is completed, or the loop ends at it. -/
lemma Progress.backfillSlot (h : Progress ext answer db done asked tally s)
    (slot : Candidate × RecipientRole) :
    ∃ calls tally' stopped s',
      (UserIdBackfillService.backfillSlot slot.1 slot.2 tally).Runs
        (cycleExecute ext (responding answer)) s calls (tally', stopped) s' ∧
      lookups calls = [(slot.1.bookingUid, slot.2)] ∧
      if stopped then
        ∀ rest, LoopEnd ext answer db done (slot :: rest) (asked ++ requests calls) tally' true s'.1
      else Progress ext answer db (done ++ [slot]) (asked ++ requests calls) tally' s' := by
  have hcall : cycleExecute ext (responding answer)
      (.selectLatestEmail slot.1.bookingUid slot.2) s =
        .ok (latestEmail ext db.tables.events slot.1.bookingUid slot.2, s) := by
    rw [h.state]
    rfl
  unfold UserIdBackfillService.backfillSlot
  rw [Program.perform_bind]
  cases hemail : latestEmail ext db.tables.events slot.1.bookingUid slot.2 with
  | none =>
    rw [hemail] at hcall
    have hfound : foundUserId ext (obtained asked) db.tables.events slot.1.bookingUid slot.2 =
        none := by
      rw [foundUserId, hemail, Option.bind_none]
    have hone : Tally.Counts ext (obtained asked) db.tables.events [slot] ⟨0, 0, 1, []⟩ := by
      constructor <;> simp [hemail, hfound]
    refine ⟨_, _, false, _, Program.Runs.call hcall (Program.Runs.pure _ _), rfl, ?_⟩
    rw [if_neg Bool.false_ne_true, requests_lookup, requests, List.filterMap_nil,
      List.append_nil]
    exact h.skip (by simp [hemail]) hone hfound
  | some email =>
    rw [hemail] at hcall
    obtain ⟨calls, tally', resolution, s', hruns, hlookups, hresolution⟩ :=
      h.resolve email slot.2
    cases resolution with
    | unavailable =>
      refine ⟨_, _, true, _, Program.Runs.call hcall (hruns.bind (Program.Runs.pure _ _)), ?_, ?_⟩
      · rw [lookups_lookup, lookups_append, hlookups]
        rfl
      · rw [if_pos rfl, requests_lookup, List.append_nil]
        exact fun rest => hresolution slot rest rfl hemail
    | answered userId =>
      obtain ⟨hprogress, hmem⟩ := hresolution
      have hfound : foundUserId ext (obtained (asked ++ requests calls)) db.tables.events
          slot.1.bookingUid slot.2 = userId := by
        rw [foundUserId, hemail, Option.bind_some, obtained_of_mem hprogress.once hmem]
      have hslot : ∀ email', latestEmail ext db.tables.events slot.1.bookingUid slot.2 =
          some email' → ∃ userId, ((email', slot.2), .answered userId) ∈ asked ++ requests calls := by
        intro email' hemail'
        rw [hemail] at hemail'
        cases hemail'
        exact ⟨userId, hmem⟩
      cases userId with
      | none =>
        have hone : Tally.Counts ext (obtained (asked ++ requests calls)) db.tables.events [slot]
            ⟨0, 1, 0, []⟩ := by
          constructor <;> simp [hemail, hfound]
        refine ⟨_, _, false, _, Program.Runs.call hcall (hruns.bind (Program.Runs.pure _ _)), ?_, ?_⟩
        · rw [lookups_lookup, lookups_append, hlookups]
          rfl
        · rw [if_neg Bool.false_ne_true, requests_lookup, List.append_nil]
          exact hprogress.skip hslot hone hfound
      | some userId =>
        have hone : Tally.Counts ext (obtained (asked ++ requests calls)) db.tables.events [slot]
            ⟨1, 0, 0, []⟩ := by
          constructor <;> simp [hemail, hfound]
        refine ⟨_, _, false, _, Program.Runs.call hcall
          (hruns.bind (Program.Runs.call rfl (Program.Runs.pure _ _))), ?_, ?_⟩
        · rw [lookups_lookup, lookups_append, hlookups]
          rfl
        · rw [if_neg Bool.false_ne_true, requests_lookup, requests_append, requests_fill,
            List.append_nil]
          exact hprogress.fill hslot hone hfound

/-- The loop completes its slots up to the one it ends at. -/
lemma Progress.backfillSlots (h : Progress ext answer db done asked tally s)
    (slots : List (Candidate × RecipientRole)) :
    ∃ calls tally' aborted s' visited rest,
      (UserIdBackfillService.backfillSlots slots tally).Runs (cycleExecute ext (responding answer))
        s calls (tally', aborted) s' ∧
      slots = visited ++ rest ∧
      lookups calls = (visited ++ rest.take aborted.toNat).map
        (fun slot => (slot.1.bookingUid, slot.2)) ∧
      LoopEnd ext answer db (done ++ visited) rest (asked ++ requests calls) tally' aborted
        s'.1 := by
  induction slots generalizing done asked tally s with
  | nil =>
    refine ⟨[], tally, false, s, [], [], Program.Runs.pure _ s, rfl, rfl, ?_⟩
    rw [requests, List.filterMap_nil, List.append_nil, List.append_nil]
    refine { h.toVisited with committed := ?_, counts := h.counts, aborted_iff := ?_, stopped := ?_ }
    · rw [h.state]
    · simp
    · intro slot hslot
      cases hslot
  | cons slot slots ih =>
    obtain ⟨calls, tally', stopped, s', hruns, hlookups, hstep⟩ := h.backfillSlot slot
    cases stopped with
    | true =>
      rw [if_pos rfl] at hstep
      refine ⟨_, _, true, _, [], slot :: slots, hruns.bind (Program.Runs.pure _ _), rfl, ?_, ?_⟩
      · rw [List.append_nil, hlookups]
        rfl
      · rw [List.append_nil, List.append_nil]
        exact hstep slots
    | false =>
      rw [if_neg Bool.false_ne_true] at hstep
      obtain ⟨calls', tally'', aborted, s'', visited, rest, hruns', hslots, hlookups', hend⟩ :=
        ih hstep
      refine ⟨_, _, aborted, _, slot :: visited, rest, hruns.bind hruns', ?_, ?_, ?_⟩
      · rw [hslots, List.cons_append]
      · rw [lookups_append, hlookups, hlookups']
        rfl
      · rw [requests_append, ← List.append_assoc, List.append_cons]
        exact hend

/-- A run of a cycle, with the end of its loop. -/
lemma runOnce_responding (ext : Externals) (answer : Nat → String → RecipientRole → Resolution)
    (batchSize : Nat) (db : Db) :
    ∃ calls tally aborted db' done rest,
      runOnce ext (responding answer) batchSize db =
        (.ok { scannedBookings := (selectCandidates db.tables.bookings batchSize).length
               resolved := tally.resolved
               unresolved := tally.unresolved
               missingEmail := tally.missingEmail
               aborted := aborted }, db') ∧
      (UserIdBackfillService.runOnceProgram batchSize).trace
        (cycleExecute ext (responding answer)) (db, 0) = calls ∧
      cycleSlots batchSize db = done ++ rest ∧
      lookups calls = (done ++ rest.take aborted.toNat).map
        (fun slot => (slot.1.bookingUid, slot.2)) ∧
      LoopEnd ext answer db done rest (requests calls) tally aborted db' := by
  obtain ⟨calls, tally, aborted, s, done, rest, hloop, hslots, hlookups, hend⟩ :=
    (Progress.start ext answer db).backfillSlots (cycleSlots batchSize db)
  let rows := (selectCandidates db.tables.bookings batchSize).map BookingRow.candidate
  have hselect : cycleExecute ext (responding answer) (.selectCandidates batchSize) (db, 0) =
      .ok (rows, (db, 0)) := rfl
  have hruns : (UserIdBackfillService.runOnceProgram batchSize).Runs
      (cycleExecute ext (responding answer)) (db, 0)
      (⟨.selectCandidates batchSize, rows⟩ :: (calls ++ []))
      { scannedBookings := rows.length
        resolved := tally.resolved
        unresolved := tally.unresolved
        missingEmail := tally.missingEmail
        aborted := aborted } s :=
    Program.Runs.call hselect (hloop.bind (Program.Runs.pure _ s))
  rw [List.append_nil, List.length_map] at hruns
  refine ⟨_, tally, aborted, s.1, done, rest, ?_, hruns.trace, hslots, hlookups, hend⟩
  rw [runOnce_eq, hruns.run]

end Runs

end EventSaver
