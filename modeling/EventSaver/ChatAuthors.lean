import EventSaver.MalformedPayloads
import EventSaver.Participants

/-!
# Authors and readers of chat events

The chat handlers take the role of the first participant and use the id the extractor found for
that role, which a later entry of the same role may have given.
-/

namespace EventSaver
open JsonData EffectProgram ListData ParticipantExtractor

/-- The author a chat statement stores, or the reader it uses. -/
def ProjectionStmt.chatUserId : ProjectionStmt → Option Uuid
  | .insertChatEvent _ _ _ _ _ userId _ _ => userId
  | .updateChatRead _ readerUserId _ _ => some readerUserId
  | _ => none

section Attribution

variable (ext : Externals)

/-- The statement of one of the two chat handlers. -/
def IsChatStatement (args : HandleArgs) (stmt : ProjectionStmt) : Prop :=
  ChatEventProjection.handle ext args = .ok (some stmt) ∨
    ChatReadUpdateProjection.handle args = .ok (some stmt)

/-- The id of the first participant itself. -/
def firstParticipantId (payload : Json) : Option Uuid :=
  (participantsOf payload).head?.bind fun p => parseUuid ext ((p.get? "user_id").getD .null)

/-- No other participant's id is stored or used. -/
def AttributesToFirst (args : HandleArgs) : Prop :=
  ∀ stmt u, IsChatStatement ext args stmt → stmt.chatUserId = some u →
    firstParticipantId ext args.event.payload = some u

/-- If later entries give an id to the role of the first one, the last of them gives the id that
the first entry gives itself. -/
def FirstSpeaksForRole (payload : Json) : Prop :=
  ∀ first rest, participantsOf payload = first :: rest → ∀ role u, HasRole role first →
    IsLastGiven ext rest role (some u) → Gives ext first role u

variable {ext}

lemma userIdForRole_getD (args : HandleArgs) (p : Json) :
    args.userIdForRole ((p.get? "role").getD .null) =
      (roleOf p).bind fun role => role.rec args.organizerUserId args.clientUserId := by
  rw [HandleArgs.userIdForRole, roleOf]
  rcases p.get? "role" with _ | (_ | _ | _ | s | _ | _)
  case some.str =>
    dsimp only [Option.getD_some]
    simp only [Json.isStr_iff, Json.str.injEq]
    by_cases horganizer : s = RecipientRole.organizer.value
    · rw [if_pos horganizer, if_pos horganizer]
      rfl
    · rw [if_neg horganizer, if_neg horganizer]
      by_cases hclient : s = RecipientRole.client.value
      · rw [if_pos hclient, if_pos hclient]
        rfl
      · rw [if_neg hclient, if_neg hclient]
        rfl
  all_goals rfl

variable {args : HandleArgs} {fields original : List (String × Json)}

/-- The id the handlers use is the last one the list gives to the role of its first entry. -/
lemma firstParticipantUserId_eq (hpayload : args.event.payload = .obj fields)
    (h : extract ext args.event.payload = .ok (args.organizerUserId, args.clientUserId)) :
    args.firstParticipantUserId =
      .ok ((participantsOf args.event.payload).head?.bind fun first =>
        (roleOf first).bind fun role =>
          lastValue (userIdAs ext role) (participantsOf args.event.payload)) := by
  have hids := h
  rw [hpayload, extract_eq, Except.ok.injEq, Prod.mk.injEq] at hids
  have hrole (p : Json) : args.userIdForRole ((p.get? "role").getD .null) =
      (roleOf p).bind fun role =>
        lastValue (userIdAs ext role) (participantsOf (.obj fields)) := by
    rw [userIdForRole_getD, ← hids.1, ← hids.2]
    rcases roleOf p with _ | _ | _ <;> rfl
  rw [HandleArgs.firstParticipantUserId, hpayload, get_ok, ok_bind]
  simp only [← hrole]
  rw [participantsOf]
  rcases (Json.obj fields).get? "normalized" with _ | (_ | _ | _ | _ | _ | normalized)
  case some.obj =>
    have hlist : (Json.obj normalized).get? "participants" = normalized.lookup "participants" := rfl
    dsimp only [Option.getD_some]
    rw [hlist]
    rcases normalized.lookup "participants" with _ | (_ | _ | _ | _ | participants | _)
    case some.arr =>
      rcases participants with _ | ⟨_ | _ | _ | _ | _ | _, rest⟩ <;> rfl
    all_goals rfl
  all_goals rfl

lemma chatEvent_userId {stmt : ProjectionStmt}
    (h : ChatEventProjection.handle ext args = .ok (some stmt)) :
    args.firstParticipantUserId = .ok stmt.chatUserId := by
  simp only [ChatEventProjection.handle, bind_eq_ok] at h
  obtain ⟨action, _, messageId, _, userId, huserId, preview, _, hstmt⟩ := h
  cases hstmt
  exact huserId

lemma chatRead_userId {stmt : ProjectionStmt}
    (h : ChatReadUpdateProjection.handle args = .ok (some stmt)) :
    args.firstParticipantUserId = .ok stmt.chatUserId := by
  simp only [ChatReadUpdateProjection.handle, bind_eq_ok] at h
  obtain ⟨reader, hreader, h⟩ := h
  cases reader with
  | none => cases h
  | some reader =>
    simp only [bind_eq_ok] at h
    obtain ⟨original, _, messageId, _, hstmt⟩ := h
    cases hstmt
    exact hreader

lemma IsChatStatement.userId {stmt : ProjectionStmt} (h : IsChatStatement ext args stmt) :
    args.firstParticipantUserId = .ok stmt.chatUserId :=
  h.elim chatEvent_userId chatRead_userId

/-- The handlers build a statement only from an original that is an object. -/
lemma IsChatStatement.original_isObj {stmt : ProjectionStmt} (h : IsChatStatement ext args stmt) :
    ∃ original, Payload.original args.event.payload = .ok (.obj original) := by
  have hget {key : String} {j v : Json} (hv : Payload.get j key = .ok v) : ∃ o, j = .obj o := by
    cases j with
    | obj o => exact ⟨o, rfl⟩
    | _ => cases hv
  rcases h with h | h
  · simp only [ChatEventProjection.handle, ChatEventProjection.extractMessageId, bind_eq_ok] at h
    obtain ⟨_, _, _, ⟨j, hj, v, hv, _⟩, _⟩ := h
    obtain ⟨o, rfl⟩ := hget hv
    exact ⟨o, hj⟩
  · simp only [ChatReadUpdateProjection.handle, HandleArgs.original, bind_eq_ok] at h
    obtain ⟨reader, _, h⟩ := h
    cases reader with
    | none => cases h
    | some reader =>
      simp only [bind_eq_ok] at h
      obtain ⟨j, hj, v, hv, _⟩ := h
      obtain ⟨o, rfl⟩ := hget hv
      exact ⟨o, hj⟩

variable (ext) in
/-- Where the original is an object, the id is stored. -/
lemma exists_chatStatement (hpayload : args.event.payload = .obj fields)
    (horiginal : Payload.original args.event.payload = .ok (.obj original)) :
    ∃ stmt, IsChatStatement ext args stmt := by
  have hok : (ChatEventProjection.handle ext args).isOk = true := chatEvent_isOk hpayload horiginal
  obtain ⟨result, hresult⟩ := isOk_iff.mp hok
  have hsome := hresult
  simp only [ChatEventProjection.handle, bind_eq_ok] at hsome
  obtain ⟨action, _, messageId, _, userId, _, preview, _, hstmt⟩ := hsome
  cases hstmt
  exact ⟨_, .inl hresult⟩

/-- What the last entry of a list gives is what the last entry of its tail gives, if any does. -/
lemma firstSpeaksForRole_iff {payload : Json} :
    FirstSpeaksForRole ext payload ↔
      ∀ u, ((participantsOf payload).head?.bind fun first => (roleOf first).bind fun role =>
        lastValue (userIdAs ext role) (participantsOf payload)) = some u →
          firstParticipantId ext payload = some u := by
  unfold FirstSpeaksForRole firstParticipantId
  cases participantsOf payload with
  | nil => exact ⟨fun _ u hu => (by cases hu), fun _ first rest h => (by cases h)⟩
  | cons first rest =>
    have hhead : (first :: rest).head? = some first := rfl
    simp only [hhead, Option.bind_some, HasRole, ← roleOf_eq_some, isLastGiven_iff, lastValue_cons,
      ← userIdAs_eq_some]
    cases hrole : roleOf first with
    | none =>
      constructor
      · intro _ u hu
        cases hu
      · rintro _ _ _ ⟨rfl, rfl⟩ role u hrole'
        rw [hrole] at hrole'
        cases hrole'
    | some role =>
      have hown : userIdAs ext role first =
          parseUuid ext ((first.get? "user_id").getD .null) := by
        rw [userIdAs, if_pos hrole]
      rw [Option.bind_some, ← hown]
      constructor
      · intro hspeaks u hu
        cases hlast : lastValue (userIdAs ext role) rest with
        | none =>
          rw [hlast] at hu
          exact hu
        | some v =>
          rw [hlast] at hu
          cases hu
          exact hspeaks first rest rfl role u hrole hlast
      · rintro hspeaks _ _ ⟨rfl, rfl⟩ role' u hrole' hlast
        rw [hrole, Option.some.injEq] at hrole'
        subst hrole'
        apply hspeaks u
        rw [hlast]
        rfl

/-- The chat handlers attribute to nobody but the first participant if and only if the first
participant's role is given no other id later in the list. -/
theorem attributesToFirst_iff
    (h : extract ext args.event.payload = .ok (args.organizerUserId, args.clientUserId)) :
    AttributesToFirst ext args ↔
      ((∃ original, Payload.original args.event.payload = .ok (.obj original)) →
        FirstSpeaksForRole ext args.event.payload) := by
  have hpayload : ∃ fields, args.event.payload = .obj fields := by
    cases hp : args.event.payload with
    | obj fields => exact ⟨fields, rfl⟩
    | _ =>
      rw [hp] at h
      cases h
  obtain ⟨fields, hpayload⟩ := hpayload
  have hid := firstParticipantUserId_eq hpayload h
  rw [firstSpeaksForRole_iff]
  constructor
  · rintro hattr ⟨original, horiginal⟩ u hu
    obtain ⟨stmt, hstmt⟩ := exists_chatStatement ext hpayload horiginal
    apply hattr stmt u hstmt
    rw [hstmt.userId, Except.ok.injEq] at hid
    rw [hid, hu]
  · intro hspeaks stmt u hstmt hu
    apply hspeaks hstmt.original_isObj u
    rw [hstmt.userId, Except.ok.injEq] at hid
    rw [← hid, hu]

end Attribution

def clientB : Json := participant .client "b@x" (.str "00000000-0000-0000-0000-00000000000b")

/-- A read event of the client with the id `b`, listed after the given entries. -/
def readByClient (others : List Json) : HandleArgs where
  event := {
    eventId := "1"
    eventType := EventType.getstreamMessageRead.value
    source := SourceType.getstream.value
    occurredAt := 0
    bookingId := some "b"
    payload := listing (others ++ [clientB])
    idempotencyKey := none
    traceId := none
    spanId := none
    dataschema := none
    payloadHash := "" }
  bookingRefId := 1
  organizerUserId := none
  clientUserId := some ⟨11⟩
  queueName := "events.chat"

/-- The reader is listed first and last, with another client's id between. -/
theorem attributesToFirst_readerListedTwice :
    AttributesToFirst .sample (readByClient [clientB,
      participant .client "a@x" (.str "00000000-0000-0000-0000-00000000000a"),
      participant .organizer "o@x" .null]) :=
  (attributesToFirst_iff rfl).mpr fun _ first rest hlist role u hrole hlast => by
    cases hlist
    cases role with
    | organizer =>
      have hclient : roleOf clientB = some .client := rfl
      cases hclient.symm.trans (roleOf_eq_some.mpr hrole)
    | client =>
      rw [isLastGiven_iff] at hlast
      cases hlast
      exact userIdAs_eq_some.mp rfl

/-- A reader without an id is taken for the other client of the list. -/
theorem not_attributesToFirst_unknownReader :
    extract .sample (readByClient [participant .client "a@x" .null]).event.payload =
        .ok ((readByClient []).organizerUserId, (readByClient []).clientUserId) ∧
      ¬AttributesToFirst .sample (readByClient [participant .client "a@x" .null]) := by
  refine ⟨rfl, fun hattr => ?_⟩
  have hread : IsChatStatement .sample (readByClient [participant .client "a@x" .null])
      (.updateChatRead 1 ⟨11⟩ .null 0) := .inr rfl
  have hfirst := hattr _ _ hread rfl
  cases hfirst

end EventSaver
