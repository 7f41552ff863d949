import EventSaver.BackfillCycle

/-!
# The client of the users service

`UsersHttpResolver.resolve` for every outcome of its request, and what its exceptions do to a
cycle of the backfill. Only `UsersServiceUnavailableError` ends a cycle with a commit; any other
exception rolls the whole cycle back.
-/

namespace EventSaver
open JsonData EffectProgram

structure HttpRequest where
  path : String
  params : List (String × String)
  headers : List (String × String)

/-- What `client.get` ends with: an `httpx.HTTPError`, or a response with its status code and what
`response.json()` gives for its body. -/
inductive HttpOutcome where
  | httpError
  | response (statusCode : Nat) (json : Except Exc Json)

/-- A response of status 200 whose body is not decoded, or has neither a text nor null where the id
is read. -/
inductive HttpOutcome.Misread : HttpOutcome → Prop
  | undecoded {e : Exc} : Misread (.response 200 (.error e))
  | notObject {json : Json} (hobject : ∀ fields, json ≠ .obj fields) :
      Misread (.response 200 (.ok json))
  | idNotText {fields : List (String × Json)} {id : Json}
      (hid : (Json.obj fields).get? "id" = some id) (hnull : id ≠ .null)
      (htext : ∀ s, id ≠ .str s) : Misread (.response 200 (.ok (.obj fields)))

namespace UsersHttpResolver

variable (ext : Externals)

def byIdentity (apiToken email role : String) : HttpRequest where
  path := "/api/users/by-identity"
  params := [("email", email), ("role", role)]
  headers := [("Authorization", "Bearer " ++ apiToken)]

/-- `resolve`. Reading the body and taking the id from it are outside the `try`. -/
def resolve (get : HttpRequest → HttpOutcome) (apiToken email role : String) :
    Except Exc Resolution :=
  match get (byIdentity apiToken email role) with
  | .httpError => .ok .unavailable
  | .response statusCode json =>
    if statusCode = 404 then .ok (.answered none)
    else if statusCode ≠ 200 then .ok .unavailable
    else do
      let rawId ← Payload.get (← json) "id"
      match pyUuid ext rawId with
      | .ok userId => .ok (.answered (some userId))
      | .error .typeError => .ok .unavailable
      | .error .valueError => .ok .unavailable
      | .error e => .error e

/-- The response is an object that has the text of an id. -/
def Names (outcome : HttpOutcome) (userId : Uuid) : Prop :=
  ∃ fields s, outcome = .response 200 (.ok (.obj fields)) ∧
    (Json.obj fields).get? "id" = some (.str s) ∧ ext.uuid s = some userId

/-- No user for status 404, the user of a response that names one, and otherwise
`UsersServiceUnavailableError`. -/
structure Classifies (outcome : HttpOutcome) (result : Except Exc Resolution) : Prop where
  notFound : result = .ok (.answered none) ↔ ∃ json, outcome = .response 404 json
  found : ∀ userId, result = .ok (.answered (some userId)) ↔ Names ext outcome userId
  otherwise : (¬ ∃ json, outcome = .response 404 json) → (∀ userId, ¬ Names ext outcome userId) →
    result = .ok .unavailable

/-- The id that a body names. -/
def named : Except Exc Json → Option Uuid
  | .ok json =>
    match json.get? "id" with
    | some (.str s) => ext.uuid s
    | _ => none
  | .error _ => none

/-- The resolution that classifies an outcome. -/
def classified : HttpOutcome → Resolution
  | .httpError => .unavailable
  | .response statusCode json =>
    if statusCode = 404 then .answered none
    else if statusCode ≠ 200 then .unavailable
    else
      match named ext json with
      | some userId => .answered (some userId)
      | none => .unavailable

section Answers

variable {ext} {outcome : HttpOutcome} {result : Except Exc Resolution}

lemma named_eq_some {json : Except Exc Json} {userId : Uuid} :
    named ext json = some userId ↔ ∃ fields s, json = .ok (.obj fields) ∧
      (Json.obj fields).get? "id" = some (.str s) ∧ ext.uuid s = some userId := by
  constructor
  · intro h
    cases json with
    | error e => cases h
    | ok json =>
      rw [named] at h
      split at h
      · rename_i s hid
        cases json with
        | obj fields => exact ⟨fields, s, rfl, hid, h⟩
        | _ => cases hid
      · cases h
  · rintro ⟨fields, s, rfl, hid, hs⟩
    rw [named, hid]
    exact hs

lemma names_iff {userId : Uuid} :
    Names ext outcome userId ↔
      ∃ json, outcome = .response 200 json ∧ named ext json = some userId := by
  simp only [named_eq_some]
  constructor
  · rintro ⟨fields, s, rfl, hid, hs⟩
    exact ⟨_, rfl, fields, s, rfl, hid, hs⟩
  · rintro ⟨json, rfl, fields, s, rfl, hid, hs⟩
    exact ⟨fields, s, rfl, hid, hs⟩

variable (ext outcome) in
lemma classified_notFound :
    classified ext outcome = .answered none ↔ ∃ json, outcome = .response 404 json := by
  cases outcome with
  | httpError =>
    constructor
    · intro h
      cases h
    · rintro ⟨json, h⟩
      cases h
  | response statusCode json =>
    rw [classified]
    split
    · rename_i hnotFound
      exact iff_of_true rfl ⟨json, by rw [hnotFound]⟩
    · rename_i hnotFound
      refine iff_of_false ?_ ?_
      · intro h
        split at h
        · cases h
        · split at h <;> cases h
      · rintro ⟨json', h⟩
        cases h
        exact hnotFound rfl

lemma classified_found {userId : Uuid} :
    classified ext outcome = .answered (some userId) ↔ Names ext outcome userId := by
  rw [names_iff]
  cases outcome with
  | httpError =>
    constructor
    · intro h
      cases h
    · rintro ⟨json, h, _⟩
      cases h
  | response statusCode json =>
    by_cases hok : statusCode = 200
    · subst hok
      have hnamed : classified ext (.response 200 json) = .answered (some userId) ↔
          named ext json = some userId := by
        rw [classified, if_neg (by decide), if_neg (by decide)]
        cases named ext json <;> simp
      rw [hnamed]
      constructor
      · exact fun h => ⟨json, rfl, h⟩
      · rintro ⟨json', heq, h⟩
        cases heq
        exact h
    · refine iff_of_false ?_ ?_
      · intro h
        rw [classified, if_pos hok] at h
        split at h <;> cases h
      · rintro ⟨json', heq, _⟩
        cases heq
        exact hok rfl

/-- There is one way to classify an outcome. -/
lemma classifies_iff_eq : Classifies ext outcome result ↔ result = .ok (classified ext outcome) := by
  constructor
  · intro h
    cases hclassified : classified ext outcome with
    | unavailable =>
      have hnotFound : ¬ ∃ json, outcome = .response 404 json := by
        rw [← classified_notFound ext outcome, hclassified]
        intro h
        cases h
      have hfound (userId : Uuid) : ¬ Names ext outcome userId := by
        rw [← classified_found, hclassified]
        intro h
        cases h
      exact h.otherwise hnotFound hfound
    | answered userId =>
      cases userId with
      | none => exact h.notFound.mpr ((classified_notFound ext outcome).mp hclassified)
      | some userId => exact (h.found userId).mpr (classified_found.mp hclassified)
  · rintro rfl
    constructor
    · rw [Except.ok.injEq, classified_notFound ext outcome]
    · intro userId
      rw [Except.ok.injEq, classified_found]
    · intro hnotFound hfound
      rw [← classified_notFound ext outcome] at hnotFound
      cases hclassified : classified ext outcome with
      | unavailable => rfl
      | answered userId =>
        cases userId with
        | none => exact absurd hclassified hnotFound
        | some userId => exact absurd (classified_found.mp hclassified) (hfound userId)

variable {get : HttpRequest → HttpOutcome} {apiToken email role : String}

variable (ext) in
/-- An outcome that is misread raises what reading the body, taking the id or converting it raises. -/
lemma resolve_misread (h : (get (byIdentity apiToken email role)).Misread) :
    ∃ e, resolve ext get apiToken email role = .error e := by
  rw [resolve]
  generalize get (byIdentity apiToken email role) = outcome at h
  cases h with
  | @undecoded e => exact ⟨e, rfl⟩
  | @notObject json hobject =>
    have hget := Payload.get_not_object hobject "id"
    refine ⟨.attributeError, ?_⟩
    dsimp only
    rw [if_neg (by decide), if_neg (by decide), ok_bind, hget]
    rfl
  | @idNotText fields id hid hnull htext =>
    have hget : Payload.get (.obj fields) "id" = .ok id := by
      rw [Payload.get, Payload.getD, hid]
      rfl
    refine ⟨.attributeError, ?_⟩
    dsimp only
    rw [if_neg (by decide), if_neg (by decide), ok_bind, hget, ok_bind,
      pyUuid_not_text hnull htext]

/-- An outcome that is not misread is classified. -/
lemma resolve_read (h : ¬ (get (byIdentity apiToken email role)).Misread) :
    resolve ext get apiToken email role =
      .ok (classified ext (get (byIdentity apiToken email role))) := by
  rw [resolve]
  generalize get (byIdentity apiToken email role) = outcome at h
  cases outcome with
  | httpError => rfl
  | response statusCode json =>
    dsimp only [classified]
    by_cases hnotFound : statusCode = 404
    · rw [if_pos hnotFound, if_pos hnotFound]
    rw [if_neg hnotFound, if_neg hnotFound]
    by_cases hok : statusCode = 200
    · subst hok
      rw [if_neg (not_not_intro rfl), if_neg (not_not_intro rfl)]
      cases json with
      | error e => exact absurd .undecoded h
      | ok json =>
        by_cases hobject : ∃ fields, json = .obj fields
        · obtain ⟨fields, rfl⟩ := hobject
          rw [ok_bind, Payload.get, Payload.getD, ok_bind, named]
          cases hid : (Json.obj fields).get? "id" with
          | none => rfl
          | some id =>
            rw [Option.getD_some]
            by_cases hnull : id = .null
            · subst hnull
              rfl
            · by_cases htext : ∃ s, id = .str s
              · obtain ⟨s, rfl⟩ := htext
                dsimp only [pyUuid]
                cases ext.uuid s <;> rfl
              · exact absurd (.idNotText hid hnull (not_exists.mp htext)) h
        · exact absurd (.notObject (not_exists.mp hobject)) h
    · rw [if_pos hok, if_pos hok]

/-- An outcome is classified exactly if it is not misread. -/
lemma resolve_classifies_iff :
    Classifies ext (get (byIdentity apiToken email role)) (resolve ext get apiToken email role) ↔
      ¬ (get (byIdentity apiToken email role)).Misread := by
  rw [classifies_iff_eq]
  refine ⟨fun hclassified hmisread => ?_, resolve_read⟩
  obtain ⟨e, herror⟩ := resolve_misread ext hmisread
  rw [herror] at hclassified
  cases hclassified

end Answers

section Cycles

variable (get : Nat → HttpRequest → HttpOutcome) (apiToken : String)

/-- The resolver of a cycle, where each request may end in its own way. -/
def resolver : Nat → String → RecipientRole → Except Exc Resolution :=
  fun n email role => resolve ext (get n) apiToken email role.value

/-- The answers of a resolver that classifies every outcome. -/
def answers : Nat → String → RecipientRole → Resolution :=
  fun n email role => classified ext (get n (byIdentity apiToken email role.value))

/-- No outcome of a list of requests, of which the first is the `n`-th of its cycle, is misread. -/
def Read (n : Nat) (asked : List ((String × RecipientRole) × Resolution)) : Prop :=
  ∀ i key resolution, asked[i]? = some (key, resolution) →
    ¬ (get (n + i) (byIdentity apiToken key.1 key.2.value)).Misread

variable {get apiToken}

lemma read_nil (n : Nat) : Read get apiToken n [] := by
  intro i key resolution h
  cases h

lemma read_cons {n : Nat} {key : String × RecipientRole} {resolution : Resolution}
    {asked : List ((String × RecipientRole) × Resolution)} :
    Read get apiToken n ((key, resolution) :: asked) ↔
      ¬ (get n (byIdentity apiToken key.1 key.2.value)).Misread ∧
        Read get apiToken (n + 1) asked := by
  constructor
  · intro h
    refine ⟨h 0 key resolution rfl, fun i key' resolution' hi => ?_⟩
    rw [Nat.add_right_comm]
    exact h (i + 1) key' resolution' hi
  · rintro ⟨hhead, htail⟩ i key' resolution' hi
    cases i with
    | zero =>
      cases hi
      exact hhead
    | succ i =>
      rw [← Nat.add_assoc, Nat.add_right_comm]
      exact htail i key' resolution' hi

/-- A program of a cycle runs as if every outcome were classified, or raises at the first one that
is misread. -/
lemma run_resolver {α : Type} (p : Cycle α) (db : Db) (n : Nat) :
    (Read get apiToken n
        (requests (p.trace (cycleExecute ext (responding (answers ext get apiToken))) (db, n))) ∧
      p.run (cycleExecute ext (resolver ext get apiToken)) (db, n) =
        p.run (cycleExecute ext (responding (answers ext get apiToken))) (db, n)) ∨
    (¬ Read get apiToken n
        (requests (p.trace (cycleExecute ext (responding (answers ext get apiToken))) (db, n))) ∧
      ∃ e s', p.run (cycleExecute ext (resolver ext get apiToken)) (db, n) = (.error e, s')) := by
  induction p generalizing db n with
  | pure a => exact Or.inl ⟨read_nil n, rfl⟩
  | throw e => exact Or.inl ⟨read_nil n, rfl⟩
  | call c next ih =>
    cases c with
    | selectCandidates batchSize => exact ih _ db n
    | selectLatestEmail bookingUid role => exact ih _ db n
    | fillSlot id role userId => exact ih _ _ n
    | resolve email role =>
      have htrace : requests ((Program.call (S := CycleCalls) (.resolve email role) next).trace
          (cycleExecute ext (responding (answers ext get apiToken))) (db, n)) =
            ((email, role), answers ext get apiToken n email role) ::
              requests ((next (answers ext get apiToken n email role)).trace
                (cycleExecute ext (responding (answers ext get apiToken))) (db, n + 1)) := rfl
      rw [htrace, read_cons]
      by_cases hmisread : (get n (byIdentity apiToken email role.value)).Misread
      · obtain ⟨e, herror⟩ := resolve_misread ext hmisread
        have hcall : cycleExecute ext (resolver ext get apiToken) (.resolve email role) (db, n) =
            .error e := by
          simp only [cycleExecute, resolver, herror]
        exact Or.inr ⟨fun hread => hread.1 hmisread, e, _, Program.run_call_error _ hcall⟩
      · have hcall : cycleExecute ext (resolver ext get apiToken) (.resolve email role) (db, n) =
            .ok (answers ext get apiToken n email role, (db, n + 1)) := by
          simp only [cycleExecute, resolver, resolve_read hmisread, answers]
        rw [Program.run_call_ok _ hcall, and_iff_right hmisread]
        exact ih (answers ext get apiToken n email role) db (n + 1)

variable (get apiToken)

/-- The slots of the cycle's window are completed up to the first whose request is not answered, and
what is found for the completed ones is committed. -/
structure CommitsSlots (batchSize : Nat) (db : Db) (calls : List AnsweredCall)
    (done rest : List (Candidate × RecipientRole)) (summary : BackfillSummary) : Prop
    extends Visited ext (answers ext get apiToken) db done (requests calls) where
  window : cycleSlots batchSize db = done ++ rest
  looked : lookups calls = (done ++ rest.take summary.aborted.toNat).map fun slot =>
    (slot.1.bookingUid, slot.2)
  stopped : ∀ slot ∈ rest.head?, ∃ email,
    latestEmail ext db.tables.events slot.1.bookingUid slot.2 = some email ∧
      ((email, slot.2), .unavailable) ∈ requests calls
  aborted_iff : summary.aborted = true ↔ rest ≠ []
  committed : runOnce ext (resolver ext get apiToken) batchSize db =
    (.ok summary, visitAll ext (obtained (requests calls)) done db)

def CommitsCompleted (batchSize : Nat) (db : Db) (calls : List AnsweredCall) : Prop :=
  ∃ done rest summary, CommitsSlots ext get apiToken batchSize db calls done rest summary

/-- Every outcome is classified but those that are misread, and a cycle that meets one of these is
rolled back instead of committing the slots it has completed. -/
theorem classifies_iff_read (batchSize : Nat) (db : Db) :
    (∀ n email role, Classifies ext (get n (byIdentity apiToken email role))
        (resolve ext (get n) apiToken email role) ↔
      ¬ (get n (byIdentity apiToken email role)).Misread) ∧
    let calls := (UserIdBackfillService.runOnceProgram batchSize).trace
      (cycleExecute ext (responding (answers ext get apiToken))) (db, 0)
    (CommitsCompleted ext get apiToken batchSize db calls ↔ Read get apiToken 0 (requests calls)) ∧
      (¬ Read get apiToken 0 (requests calls) →
        ∃ e, runOnce ext (resolver ext get apiToken) batchSize db = (.error e, db)) := by
  refine ⟨fun n email role => resolve_classifies_iff, ?_⟩
  obtain ⟨calls, tally, aborted, db', done, rest, hrun, htrace, hslots, hlookups, hend⟩ :=
    runOnce_responding ext (answers ext get apiToken) batchSize db
  dsimp only
  rcases run_resolver ext (UserIdBackfillService.runOnceProgram batchSize) db 0 with
    ⟨hread, hsame⟩ | ⟨hmisread, e, s', hraised⟩
  · refine ⟨iff_of_true ?_ hread, fun hmisread => absurd hread hmisread⟩
    rw [htrace]
    have hcommitted := hrun
    rw [runOnce_eq, ← hsame, ← runOnce_eq, hend.committed] at hcommitted
    exact ⟨done, rest, _, { hend.toVisited with
      window := hslots
      looked := hlookups
      stopped := hend.stopped
      aborted_iff := hend.aborted_iff
      committed := hcommitted }⟩
  · have hrollback : runOnce ext (resolver ext get apiToken) batchSize db = (.error e, db) := by
      rw [runOnce_eq, hraised]
    refine ⟨iff_of_false ?_ hmisread, fun _ => ⟨e, hrollback⟩⟩
    rintro ⟨done, rest, summary, hcommits⟩
    cases hrollback.symm.trans hcommits.committed

end Cycles

/-- A service that knows the first user asked for and gives a number for the id of the second. -/
def numericId : Nat → HttpRequest → HttpOutcome :=
  fun n _ => .response 200 (.ok (.obj [("id",
    if n = 0 then .str "00000000-0000-0000-0000-00000000000a" else .num 5 0)]))

/-- The number raises an exception that is not caught, and the two columns that were filled before
are rolled back, while a classified answer commits them. -/
theorem not_classifies_numericId :
    ¬ Classifies .sample (numericId 1 (byIdentity "token" "b@example.org" "client"))
        (resolve .sample (numericId 1) "token" "b@example.org" "client") ∧
      (runOnce .sample (resolver .sample numericId "token") 5 sharedOrganizer).2.tables.bookings =
        sharedOrganizer.tables.bookings ∧
      (runOnce .sample (responding (answers .sample numericId "token")) 5 sharedOrganizer).1 = .ok
        { scannedBookings := 2, resolved := 2, unresolved := 0, missingEmail := 1, aborted := true } := by
  refine ⟨fun h => ?_, by decide, rfl⟩
  have hunavailable := classifies_iff_eq.mp h
  cases hunavailable

end UsersHttpResolver

end EventSaver
