import EventSaver.Domain.Event

/-!
# Extraction of domain values from payloads
-/

namespace EventSaver
open JsonData EffectProgram

section Parsers

variable (ext : Externals)

/-- `text.replace("Z", "+00:00")`. -/
def replaceZ (text : String) : String :=
  String.ofList (text.toList.flatMap fun c => if c = 'Z' then "+00:00".toList else [c])

/-- `utils.parse_iso_datetime`, on decoded JSON. -/
def parseIsoDatetime : Json → Option Timestamp
  | .str s =>
    if s = "" then none
    else (ext.fromisoformat (replaceZ s)).map PyDatetime.instant
  | _ => none

variable {ext} in
lemma parseIsoDatetime_eq_some {value : Json} {time : Timestamp} :
    parseIsoDatetime ext value = some time ↔ ∃ text datetime, value = .str text ∧ text ≠ "" ∧
      ext.fromisoformat (replaceZ text) = some datetime ∧ datetime.instant = time := by
  cases value with
  | str text =>
    by_cases hempty : text = ""
    · simp [parseIsoDatetime, hempty]
    · simp [parseIsoDatetime, hempty]
  | _ => simp [parseIsoDatetime]

/-- `uuid.UUID(raw)`. -/
def pyUuid : Json → Except Exc Uuid
  | .str s =>
    match ext.uuid s with
    | some u => .ok u
    | none => .error .valueError
  | .null => .error .typeError
  | _ => .error .attributeError

variable {ext} in
lemma pyUuid_eq_ok {id : Json} {u : Uuid} :
    pyUuid ext id = .ok u ↔ ∃ s, id = .str s ∧ ext.uuid s = some u := by
  cases id with
  | str s => cases h : ext.uuid s <;> simp [pyUuid, h]
  | _ => simp [pyUuid]

variable {ext} in
lemma pyUuid_not_text {id : Json} (hnull : id ≠ .null) (htext : ∀ s, id ≠ .str s) :
    pyUuid ext id = .error .attributeError := by
  cases id with
  | null => exact absurd rfl hnull
  | str s => exact absurd rfl (htext s)
  | _ => rfl

end Parsers

namespace ParticipantExtractor

variable (ext : Externals)

def parseUuid : Json → Option Uuid
  | .str s => ext.uuid s
  | _ => none

/-- The recipient role an entry of the participants list names, if any. -/
def roleOf (p : Json) : Option RecipientRole :=
  match p.get? "role" with
  | some (.str s) =>
    if s = RecipientRole.organizer.value then some .organizer
    else if s = RecipientRole.client.value then some .client
    else none
  | _ => none

/-- The body of the loop over the participants, on the ids found so far. -/
def step (found : Option Uuid × Option Uuid) (p : Json) : Option Uuid × Option Uuid :=
  match roleOf p, parseUuid ext ((p.get? "user_id").getD .null) with
  | some .organizer, some u => (some u, found.2)
  | some .client, some u => (found.1, some u)
  | _, _ => found

def extract (payload : Json) : Except Exc (Option Uuid × Option Uuid) := do
  match ← Payload.get payload "normalized" with
  | .obj fields =>
    match ((Json.obj fields).get? "participants").getD (.arr []) with
    | .arr participants => return participants.foldl (step ext) (none, none)
    | _ => return (none, none)
  | _ => return (none, none)

end ParticipantExtractor

/-- An entry of a participants list. -/
def participant (role : RecipientRole) (email : String) (userId : Json) : Json :=
  .obj [("role", .str role.value), ("email", .str email), ("user_id", userId)]

/-- A payload that lists participants. -/
def listing (participants : List Json) : Json :=
  .obj [("original", .obj []), ("normalized", .obj [("participants", .arr participants)])]

structure BookingData where
  bookingId : String
  startTime : Option Timestamp
  endTime : Option Timestamp
  status : Option String

namespace BookingDataExtractor

variable (ext : Externals)

def statusByEventType (eventType : String) : Option String :=
  if eventType = EventType.bookingCreated.value then some "created"
  else if eventType = EventType.bookingCancelled.value then some "cancelled"
  else if eventType = EventType.bookingRejected.value then some "rejected"
  else none

def extract (bookingId eventType : String) (payload : Json) : Except Exc BookingData := do
  let original := ext.unwrapPayload payload
  let startTime ← Payload.get original "start_time"
  let endTime ← Payload.get original "end_time"
  return {
    bookingId := bookingId
    startTime := parseIsoDatetime ext startTime
    endTime := parseIsoDatetime ext endTime
    status := statusByEventType eventType }

variable {ext} in
lemma extract_eq_ok {bookingId eventType : String} {payload : Json} {data : BookingData}
    (h : extract ext bookingId eventType payload = .ok data) :
    data.status = statusByEventType eventType ∧
      data.startTime =
        parseIsoDatetime ext (((ext.unwrapPayload payload).get? "start_time").getD .null) ∧
      data.endTime =
        parseIsoDatetime ext (((ext.unwrapPayload payload).get? "end_time").getD .null) := by
  obtain ⟨_, hstart, h⟩ := bind_eq_ok.mp h
  obtain ⟨_, hend, h⟩ := bind_eq_ok.mp h
  cases h
  rw [(Payload.get_eq_ok.mp hstart).2, (Payload.get_eq_ok.mp hend).2]
  exact ⟨rfl, rfl, rfl⟩

lemma extract_bookingId {bookingId eventType : String} {payload : Json} {data : BookingData}
    (h : extract ext bookingId eventType payload = .ok data) : data.bookingId = bookingId := by
  simp only [extract, bind_pure_comp, bind_eq_ok, map_eq_ok] at h
  obtain ⟨startTime, _, endTime, _, rfl⟩ := h
  rfl

end BookingDataExtractor

end EventSaver
