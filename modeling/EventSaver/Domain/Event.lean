import Mathlib.Data.BitVec
import EventSaver.Library.Json
import EventSaver.Library.Program

/-!
# Events

Identifiers, exceptions and event types, what the code uses from outside the repository, and
the parsing of a delivered CloudEvent into a domain event.
-/

namespace EventSaver
open JsonData EffectProgram

/-- An instant, in microseconds. -/
abbrev Timestamp := Int

structure Uuid where
  int : BitVec 128
  deriving DecidableEq, Repr

/-- A `datetime`: its wall-clock reading, and its UTC offset when it is aware. -/
structure PyDatetime where
  wall : Int
  utcoffset : Option Int

namespace PyDatetime

/-- The instant of a datetime, a naive one being read as UTC. -/
def instant (d : PyDatetime) : Timestamp := d.wall - d.utcoffset.getD 0

end PyDatetime

/-- Exception classes, as far as the code tells them apart. -/
inductive Exc where
  | typeError
  | valueError
  | keyError
  | attributeError
  | runtimeError
  | operationalError
  | interfaceError
  | sqlTimeoutError
  | osError
  | timeoutError
  | dbapiError (connectionInvalidated : Bool)
  | other (name : String)
  deriving DecidableEq, Repr

inductive EventType where
  | bookingCreated
  | bookingRescheduled
  | bookingReassigned
  | bookingCancelled
  | bookingRejected
  | bookingClientReassigned
  | chatCreated
  | chatDeleted
  | chatMessageSent
  | getstreamMessageRead
  | meetingUrlCreated
  | meetingUrlDeleted
  | notificationEmailSent
  | notificationTelegramSent
  | unisenderStatusCreated
  | userSynced
  | jitsiConferenceJoined
  | jitsiConferenceLeft
  | jitsiAudioMuteStatusChanged
  deriving DecidableEq, Repr

namespace EventType

def value : EventType → String
  | .bookingCreated => "booking.created"
  | .bookingRescheduled => "booking.rescheduled"
  | .bookingReassigned => "booking.reassigned"
  | .bookingCancelled => "booking.cancelled"
  | .bookingRejected => "booking.rejected"
  | .bookingClientReassigned => "booking.client_reassigned"
  | .chatCreated => "chat.created"
  | .chatDeleted => "chat.deleted"
  | .chatMessageSent => "chat.message_sent"
  | .getstreamMessageRead => "getstream.message.read"
  | .meetingUrlCreated => "meeting.url_created"
  | .meetingUrlDeleted => "meeting.url_deleted"
  | .notificationEmailSent => "notification.email.message_sent"
  | .notificationTelegramSent => "notification.telegram.message_sent"
  | .unisenderStatusCreated => "unisender.events.v1.transactional.status.create"
  | .userSynced => "user.synced"
  | .jitsiConferenceJoined => "jitsi.conference.joined"
  | .jitsiConferenceLeft => "jitsi.conference.left"
  | .jitsiAudioMuteStatusChanged => "jitsi.audio.mute_status_changed"

/-- Different members have different values. -/
lemma value_inj {s t : EventType} : s.value = t.value ↔ s = t := by
  constructor
  · intro h
    cases s <;> cases t <;> first | rfl | exact absurd h (by decide)
  · rintro rfl
    rfl

end EventType

inductive SourceType where
  | booking
  | getstream
  | jitsi
  deriving DecidableEq, Repr

def SourceType.value : SourceType → String
  | .booking => "booking"
  | .getstream => "getstream"
  | .jitsi => "jitsi"

inductive RecipientRole where
  | organizer
  | client
  deriving DecidableEq, Repr

def RecipientRole.value : RecipientRole → String
  | .organizer => "organizer"
  | .client => "client"

def BOOKING_LIFECYCLE_SAVER_QUEUE : String := "events.booking.lifecycle.saver"

/-- What the code uses from outside the repository: parsers of the standard library,
`event_schemas`, and the text functions of the database. The values of the members of
`EventType` that no file of the repository spells out are fields too. -/
structure Externals where
  fromisoformat : String → Option PyDatetime
  uuid : String → Option Uuid
  payloadHash : Json → String
  unwrapPayload : Json → Json
  jitsiEventTypes : List String
  jitsiVideoMuteStatusChanged : String
  jitsiDeviceListChanged : String
  lower : String → String
  /-- The text `->>` gives for a number, a boolean, an array or an object. -/
  jsonbText : Json → String

/-- Externals for runs on given inputs, with two ids and no other text in need of a parser. -/
def Externals.sample : Externals where
  fromisoformat _ := none
  uuid s :=
    if s = "00000000-0000-0000-0000-00000000000a" then some ⟨10⟩
    else if s = "00000000-0000-0000-0000-00000000000b" then some ⟨11⟩
    else none
  payloadHash _ := ""
  unwrapPayload payload := (payload.get? "original").getD payload
  jitsiEventTypes := ["jitsi.conference.joined", "jitsi.conference.left",
    "jitsi.audio.mute_status_changed", "jitsi.video.mute_status_changed"]
  jitsiVideoMuteStatusChanged := "jitsi.video.mute_status_changed"
  jitsiDeviceListChanged := "jitsi.device.list_changed"
  lower s := String.ofList (s.toList.map Char.toLower)
  jsonbText _ := ""

namespace Payload

/-- `value.get(key, default)`. -/
def getD (value : Json) (key : String) (default : Json) : Except Exc Json :=
  match value with
  | .obj _ => .ok ((value.get? key).getD default)
  | _ => .error .attributeError

/-- `value.get(key)`. -/
def get (value : Json) (key : String) : Except Exc Json := getD value key .null

/-- `payload.get("original", payload)`. -/
def original (payload : Json) : Except Exc Json := getD payload "original" payload

/-- `value[key]`. -/
def item (value : Json) (key : String) : Except Exc Json :=
  match value with
  | .obj _ =>
    match value.get? key with
    | some v => .ok v
    | none => .error .keyError
  | _ => .error .typeError

lemma getD_eq_ok {value default result : Json} {key : String} :
    getD value key default = .ok result ↔
      value.isObj = true ∧ result = (value.get? key).getD default := by
  cases value <;> simp [getD, Json.isObj, eq_comm]

lemma get_eq_ok {value result : Json} {key : String} :
    get value key = .ok result ↔ value.isObj = true ∧ result = (value.get? key).getD .null :=
  getD_eq_ok

lemma item_eq_ok {value result : Json} {key : String} :
    item value key = .ok result ↔ value.get? key = some result := by
  cases value with
  | obj fields =>
    simp only [item]
    cases (Json.obj fields).get? key <;> simp
  | _ => simp [item, Json.get?]

lemma original_eq_ok {payload result : Json} :
    original payload = .ok result ↔
      payload.isObj = true ∧ result = (payload.get? "original").getD payload :=
  getD_eq_ok

lemma get_not_object {value : Json} (h : ∀ fields, value ≠ .obj fields) (key : String) :
    get value key = .error .attributeError := by
  cases value with
  | obj fields => exact absurd rfl (h fields)
  | _ => rfl

end Payload

/-- The `time` attribute of a delivered event: absent, a datetime, or anything else, by its
text. -/
inductive TimeValue where
  | none
  | datetime (d : PyDatetime)
  | text (s : String)

/-- The arguments of `save_event`. -/
structure Message where
  queueName : String
  eventId : String
  bookingId : Option String
  eventType : String
  source : String
  time : TimeValue
  payload : Json
  idempotencyKey : Option String
  traceId : Option String
  spanId : Option String
  dataschema : Option String

/-- Two messages with one event id, or with one idempotency key. -/
def Message.SharesKey (m m' : Message) : Prop :=
  m.eventId = m'.eventId ∨ (m.idempotencyKey.isSome ∧ m.idempotencyKey = m'.idempotencyKey)

/-- A message with a time, from the booking service. -/
def Message.sample (queueName eventId bookingId : String) (eventType : EventType)
    (time : Timestamp) (payload : Json) : Message where
  queueName := queueName
  eventId := eventId
  bookingId := some bookingId
  eventType := eventType.value
  source := SourceType.booking.value
  time := .datetime ⟨time, some 0⟩
  payload := payload
  idempotencyKey := none
  traceId := none
  spanId := none
  dataschema := none

structure RawEventData where
  eventId : String
  eventType : String
  source : String
  occurredAt : Timestamp
  bookingId : Option String
  payload : Json
  idempotencyKey : Option String
  traceId : Option String
  spanId : Option String
  dataschema : Option String

structure ParsedEvent extends RawEventData where
  payloadHash : String

namespace EventParser

variable (ext : Externals)

def parseOccurredAt (now : Timestamp) : TimeValue → Except Exc Timestamp
  | .none => .ok now
  | .datetime d => .ok d.instant
  | .text s =>
    match ext.fromisoformat s with
    | some d => .ok d.instant
    | none => .error .valueError

/-- `data or {}`. -/
def orEmpty (data : Json) : Json := if data.truthy then data else .obj []

def parse (now : Timestamp) (m : Message) : Except Exc ParsedEvent := do
  let occurredAt ← parseOccurredAt ext now m.time
  let payload := orEmpty m.payload
  return {
    eventId := m.eventId
    eventType := m.eventType
    source := m.source
    occurredAt := occurredAt
    bookingId := m.bookingId
    payload := payload
    idempotencyKey := m.idempotencyKey
    traceId := m.traceId
    spanId := m.spanId
    dataschema := m.dataschema
    payloadHash := ext.payloadHash payload }

/-- The keys of an event are those of its message. -/
lemma parse_keys {now : Timestamp} {m : Message} {event : ParsedEvent}
    (h : parse ext now m = .ok event) :
    event.eventId = m.eventId ∧ event.idempotencyKey = m.idempotencyKey := by
  obtain ⟨occurredAt, _, h⟩ := bind_eq_ok.mp h
  cases h
  exact ⟨rfl, rfl⟩

lemma parse_filed {now : Timestamp} {m : Message} {event : ParsedEvent}
    (h : parse ext now m = .ok event) :
    event.bookingId = m.bookingId ∧ event.eventType = m.eventType ∧
      event.payload = orEmpty m.payload := by
  obtain ⟨occurredAt, _, h⟩ := bind_eq_ok.mp h
  cases h
  exact ⟨rfl, rfl, rfl⟩

lemma parse_occurredAt {now : Timestamp} {m : Message} {event : ParsedEvent}
    (h : parse ext now m = .ok event) :
    parseOccurredAt ext now m.time = .ok event.occurredAt := by
  obtain ⟨occurredAt, htime, h⟩ := bind_eq_ok.mp h
  cases h
  exact htime

end EventParser

end EventSaver
