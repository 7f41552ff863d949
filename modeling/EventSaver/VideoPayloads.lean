import EventSaver.Envelope
import EventSaver.MalformedPayloads

/-!
# Payloads of video events

What the video handler stores of a payload is decided by the action the classifier names, which
depends on the queue.
-/

namespace EventSaver
open JsonData EffectProgram

/-- What the code relies on about the values of the `jitsi` event types: the prefix is followed by
an action that does not start with the prefix again. -/
structure JitsiVocabulary (ext : Externals) : Prop where
  types : ∀ t ∈ ext.jitsiEventTypes, ∃ action, t = JITSI_PREFIX ++ action ∧ action ≠ "" ∧
    ¬JITSI_PREFIX.toList <+: action.toList
  video : ext.jitsiVideoMuteStatusChanged ∈ ext.jitsiEventTypes
  device : ext.jitsiDeviceListChanged ∈ ext.jitsiEventTypes
  distinct : [EventType.jitsiConferenceJoined.value, EventType.jitsiConferenceLeft.value,
    EventType.jitsiAudioMuteStatusChanged.value, ext.jitsiVideoMuteStatusChanged,
    ext.jitsiDeviceListChanged].Nodup

/-- What the video table keeps of the original payload of an event. -/
inductive Kept where
  | nothing
  | muted
  | devices
  | everything
  deriving DecidableEq

namespace Kept

def ofEventType (ext : Externals) (eventType : String) : Kept :=
  if eventType = EventType.jitsiConferenceJoined.value ∨
      eventType = EventType.jitsiConferenceLeft.value then .nothing
  else if eventType = EventType.jitsiAudioMuteStatusChanged.value ∨
      eventType = ext.jitsiVideoMuteStatusChanged then .muted
  else if eventType = ext.jitsiDeviceListChanged then .devices
  else .everything

/-- The payload `{}`, at most a boolean `muted`, or at most an object `devices`. -/
def AtMost : Kept → Json → Prop
  | .nothing, stored => stored = .obj []
  | .muted, stored => stored = .obj [] ∨ ∃ b, stored = .obj [("muted", .bool b)]
  | .devices, stored => stored = .obj [] ∨ ∃ d, stored = .obj [("devices", .obj d)]
  | .everything, _ => True

/-- The part of an original that is kept. -/
def project (original : Json) : Kept → Json
  | .nothing => .obj []
  | .muted =>
    match original.get? "muted" with
    | some (.bool b) => .obj [("muted", .bool b)]
    | _ => .obj []
  | .devices =>
    match original.get? "devices" with
    | some (.obj d) => .obj [("devices", .obj d)]
    | _ => .obj []
  | .everything => original

/-- Two originals that differ only in fields that are not kept. -/
def SameIn : Kept → Json → Json → Prop
  | .nothing, _, _ => True
  | .muted, o, o' => o.get? "muted" = o'.get? "muted"
  | .devices, o, o' => o.get? "devices" = o'.get? "devices"
  | .everything, o, o' => o = o'

end Kept

def HandleArgs.onQueue (args : HandleArgs) (queueName : String) : HandleArgs :=
  { args with queueName := queueName }

/-- The payload a video statement stores. -/
def ProjectionStmt.videoPayload : ProjectionStmt → Option Json
  | .insertVideoEvent _ _ _ _ _ _ payload => some payload
  | _ => none

namespace VideoEventProjection

variable (ext : Externals)

/-- The payload stored for an event that comes from a given queue. -/
def storedPayload (args : HandleArgs) (queueName : String) : Option Json :=
  match handle ext (args.onQueue queueName) with
  | .ok (some stmt) => stmt.videoPayload
  | _ => none

/-- From either of two queues an event gives the same statement, which stores the minimised payload
only and nothing that depends on other fields. -/
structure QueueIndependent (args : HandleArgs) (q₁ q₂ : String) : Prop where
  same : ∃ stmt, handle ext (args.onQueue q₁) = .ok (some stmt) ∧
    handle ext (args.onQueue q₂) = .ok (some stmt)
  atMost : ∀ q, q = q₁ ∨ q = q₂ → ∀ stored, storedPayload ext args q = some stored →
    (Kept.ofEventType ext args.event.eventType).AtMost stored
  blind : ∀ payload' hash o o', args.event.payload.get? "original" = some (.obj o) →
    payload'.get? "original" = some (.obj o') →
    (Kept.ofEventType ext args.event.eventType).SameIn (.obj o) (.obj o') →
    ∀ q, q = q₁ ∨ q = q₂ →
      storedPayload ext (args.withPayload payload' hash) q = storedPayload ext args q

/-- The action a queue names for a `jitsi` event: on the chat queue the `type` of the original when
it has one, on the queue of the events the type without its prefix, elsewhere the full type. -/
def actionOn (queueName eventType : String) (original : Json) : Json :=
  if queueName = "events.chat" ∧ ((original.get? "type").getD .null).truthy = true then
    (original.get? "type").getD .null
  else if queueName = "events.jitsi" then .str (removePrefix eventType JITSI_PREFIX)
  else .str eventType

end VideoEventProjection

section Prefixes

lemma removePrefix_append (action : String) :
    removePrefix (JITSI_PREFIX ++ action) JITSI_PREFIX = action := by
  rw [removePrefix, if_pos (by rw [String.toList_append]; exact List.prefix_append _ _),
    String.toList_append, List.drop_left, String.ofList_toList]

lemma append_action_inj {action action' : String} :
    JITSI_PREFIX ++ action = JITSI_PREFIX ++ action' ↔ action = action' := by
  constructor
  · intro h
    rw [← removePrefix_append action, h, removePrefix_append]
  · rintro rfl
    rfl

lemma action_ne_type {action action' : String} (h : ¬JITSI_PREFIX.toList <+: action.toList) :
    action ≠ JITSI_PREFIX ++ action' := by
  rintro rfl
  apply h
  rw [String.toList_append]
  exact List.prefix_append _ _

lemma not_unisender (action : String) :
    JITSI_PREFIX ++ action ≠ EventType.unisenderStatusCreated.value := by
  intro h
  have hhead := congrArg (fun s => s.toList.head?) h
  rw [String.toList_append, List.head?_append_of_ne_nil _ (by decide)] at hhead
  exact absurd hhead (by decide)

lemma joined_eq :
    EventType.jitsiConferenceJoined.value = JITSI_PREFIX ++ "conference.joined" := rfl

lemma left_eq : EventType.jitsiConferenceLeft.value = JITSI_PREFIX ++ "conference.left" := rfl

lemma audioMute_eq :
    EventType.jitsiAudioMuteStatusChanged.value =
      JITSI_PREFIX ++ "audio.mute_status_changed" := rfl

end Prefixes

namespace Kept

variable (ext : Externals)

/-- What is kept under an action the classifier names. -/
def ofAction (action : String) : Kept :=
  if action ∈ VideoEventProjection.muteActions ext then .muted
  else if action = VideoEventProjection.deviceAction ext then .devices
  else if action ∈ VideoEventProjection.conferenceActions then .nothing
  else .everything

variable {ext}

lemma project_atMost (kept : Kept) (original : Json) : kept.AtMost (project original kept) := by
  cases kept with
  | nothing => rfl
  | muted =>
    rw [project]
    split
    · exact .inr ⟨_, rfl⟩
    · exact .inl rfl
  | devices =>
    rw [project]
    split
    · exact .inr ⟨_, rfl⟩
    · exact .inl rfl
  | everything => trivial

lemma SameIn.project_eq {kept : Kept} {o o' : Json} (h : kept.SameIn o o') :
    project o kept = project o' kept := by
  cases kept with
  | nothing => rfl
  | muted => rw [project, project, h]
  | devices => rw [project, project, h]
  | everything => exact h

end Kept

namespace JitsiVocabulary

variable {ext : Externals} (hv : JitsiVocabulary ext)

include hv

/-- The action of an event type, which is not itself an event type. -/
lemma exists_action {t : String} (ht : t ∈ ext.jitsiEventTypes) :
    ∃ action, t = JITSI_PREFIX ++ action ∧ action ≠ "" ∧
      ∀ action', action ≠ JITSI_PREFIX ++ action' := by
  obtain ⟨action, htype, hne, hprefix⟩ := hv.types t ht
  exact ⟨action, htype, hne, fun action' => action_ne_type hprefix⟩

/-- The names of the actions that are treated specially, one for each of five event types. -/
lemma exists_names :
    ∃ video device,
      VideoEventProjection.muteActions ext = ["audio.mute_status_changed", video] ∧
      VideoEventProjection.deviceAction ext = device ∧
      ext.jitsiVideoMuteStatusChanged = JITSI_PREFIX ++ video ∧
      ext.jitsiDeviceListChanged = JITSI_PREFIX ++ device ∧
      (∀ action, video ≠ JITSI_PREFIX ++ action) ∧ (∀ action, device ≠ JITSI_PREFIX ++ action) ∧
      ["conference.joined", "conference.left", "audio.mute_status_changed", video, device].Nodup := by
  obtain ⟨video, hvideo, _, hvideo'⟩ := hv.exists_action hv.video
  obtain ⟨device, hdevice, _, hdevice'⟩ := hv.exists_action hv.device
  have hnodup := hv.distinct
  rw [hvideo, hdevice] at hnodup
  refine ⟨video, device, ?_, ?_, hvideo, hdevice, hvideo', hdevice', ?_⟩
  · rw [VideoEventProjection.muteActions, hvideo, removePrefix_append]
    rfl
  · rw [VideoEventProjection.deviceAction, hdevice, removePrefix_append]
  · rw [joined_eq, left_eq, audioMute_eq] at hnodup
    exact List.Nodup.of_map (l := ["conference.joined", "conference.left",
      "audio.mute_status_changed", video, device]) (fun action => JITSI_PREFIX ++ action) hnodup

/-- The prefix-less action decides what is kept, and so does the event type. -/
lemma ofAction_cut {t : String} (ht : t ∈ ext.jitsiEventTypes) :
    Kept.ofAction ext (removePrefix t JITSI_PREFIX) = Kept.ofEventType ext t := by
  obtain ⟨action, rfl, _, _⟩ := hv.exists_action ht
  obtain ⟨video, device, hmute, hdev, hvideo, hdevice, _, _, hnodup⟩ := hv.exists_names
  have hconference : VideoEventProjection.conferenceActions =
      ["conference.joined", "conference.left"] := by decide
  rw [removePrefix_append, Kept.ofAction, Kept.ofEventType, hmute, hdev, hconference, hvideo,
    hdevice, joined_eq, left_eq, audioMute_eq]
  simp only [append_action_inj, List.mem_cons, List.not_mem_nil, or_false]
  simp only [List.nodup_cons, List.mem_cons, List.not_mem_nil, or_false, not_or] at hnodup
  by_cases hconf : action = "conference.joined" ∨ action = "conference.left"
  · have hmuted : ¬(action = "audio.mute_status_changed" ∨ action = video) := by
      rcases hconf with rfl | rfl
      · exact not_or.mpr ⟨hnodup.1.2.1, hnodup.1.2.2.1⟩
      · exact not_or.mpr ⟨hnodup.2.1.1, hnodup.2.1.2.1⟩
    have hdevices : action ≠ device := by
      rcases hconf with rfl | rfl
      · exact hnodup.1.2.2.2
      · exact hnodup.2.1.2.2
    rw [if_neg hmuted, if_neg hdevices, if_pos hconf, if_pos hconf]
  · rw [if_neg hconf, if_neg hconf]

/-- The full event type is none of the actions, so under it everything is kept. -/
lemma ofAction_type {t : String} (ht : t ∈ ext.jitsiEventTypes) :
    Kept.ofAction ext t = .everything := by
  obtain ⟨action, rfl, _, _⟩ := hv.exists_action ht
  obtain ⟨video, device, hmute, hdev, _, _, hvideo, hdevice, _⟩ := hv.exists_names
  have hconference : VideoEventProjection.conferenceActions =
      ["conference.joined", "conference.left"] := by decide
  rw [Kept.ofAction, hmute, hdev, hconference]
  have hsimple (name : String) (h : ¬JITSI_PREFIX.toList <+: name.toList) :
      JITSI_PREFIX ++ action ≠ name := (action_ne_type h).symm
  rw [if_neg, if_neg (hdevice action).symm, if_neg]
  · simp only [List.mem_cons, List.not_mem_nil, or_false, not_or]
    exact ⟨hsimple _ (by decide), hsimple _ (by decide)⟩
  · simp only [List.mem_cons, List.not_mem_nil, or_false, not_or]
    exact ⟨hsimple _ (by decide), (hvideo action).symm⟩

end JitsiVocabulary

namespace VideoEventProjection

section Stored

variable {ext : Externals} {args : HandleArgs} {o : List (String × Json)} {q q₁ q₂ : String}

variable (ext) in
/-- A scalar action keeps its part of the original, a container is no action. -/
lemma projectPayload_str (action : String) {payload : Json}
    (h : Payload.original payload = .ok (.obj o)) :
    projectPayload ext (.str action) payload =
      .ok ((Kept.ofAction ext action).project (.obj o)) := by
  rw [projectPayload, h, ok_bind, Kept.ofAction]
  dsimp only
  by_cases hmuted : action ∈ muteActions ext
  · rw [if_pos hmuted, if_pos hmuted, get_ok, ok_bind, Kept.project]
    rcases (Json.obj o).get? "muted" with _ | (_ | _ | _ | _ | _ | _) <;> rfl
  · rw [if_neg hmuted, if_neg hmuted]
    by_cases hdevice : action = deviceAction ext
    · rw [if_pos hdevice, if_pos hdevice, get_ok, ok_bind, Kept.project]
      rcases (Json.obj o).get? "devices" with _ | (_ | _ | _ | _ | _ | _) <;> rfl
    · rw [if_neg hdevice, if_neg hdevice]
      split <;> rfl

lemma projectPayload_congr (action : Json) {payload payload' : Json}
    (h : Payload.original payload = Payload.original payload') :
    projectPayload ext action payload = projectPayload ext action payload' := by
  rw [projectPayload, projectPayload, h]

/-- The classifier names the action of the queue. -/
lemma extractAction_eq (hv : JitsiVocabulary ext) {eventType : String}
    (ht : eventType ∈ ext.jitsiEventTypes) {payload : Json}
    (h : Payload.original payload = .ok (.obj o)) (q : String) :
    BookingTimelineClassifier.extractAction ext q eventType SourceType.jitsi.value payload =
      .ok (actionOn q eventType (.obj o)) := by
  obtain ⟨action, rfl, hne, _⟩ := hv.exists_action ht
  have hsource : BookingTimelineClassifier.extractActionBySource SourceType.jitsi.value payload =
      .ok .null := rfl
  have hfull : (BookingTimelineClassifier.extractActionByEventType (JITSI_PREFIX ++ action)).getD
      (JITSI_PREFIX ++ action) = JITSI_PREFIX ++ action := by
    rw [BookingTimelineClassifier.extractActionByEventType, if_neg (not_unisender action)]
    rfl
  have hnull : Json.null.truthy = false := rfl
  rw [BookingTimelineClassifier.extractAction, BookingTimelineClassifier.extractActionByQueue,
    hsource, hfull, actionOn]
  by_cases hchat : q = "events.chat"
  · have hjitsi : q ≠ "events.jitsi" := by rw [hchat]; decide
    rw [if_pos hchat, if_neg hjitsi, BookingTimelineClassifier.extractActionByQueueChat, h,
      ok_bind, get_ok, ok_bind]
    cases htruthy : (((Json.obj o).get? "type").getD .null).truthy with
    | true => simp [hchat, htruthy]
    | false => simp [hnull]
  · rw [if_neg hchat]
    by_cases hjitsi : q = "events.jitsi"
    · have htruthy : (Json.str action).truthy = true := by
        simpa [Json.truthy] using hne
      rw [if_pos hjitsi, if_pos hjitsi, BookingTimelineClassifier.extractActionByQueueJitsi,
        if_pos ht, removePrefix_append]
      simp [hchat, htruthy]
    · simp [hchat, hjitsi, hnull]

/-- The statement, of which the action and the payload depend on the queue. -/
lemma handle_eq (hv : JitsiVocabulary ext) (ht : args.event.eventType ∈ ext.jitsiEventTypes)
    (h : Payload.original args.event.payload = .ok (.obj o)) :
    ∃ role userId time, ∀ q, handle ext (args.onQueue q) =
      (projectPayload ext (actionOn q args.event.eventType (.obj o)) args.event.payload).map
        fun payload => some (.insertVideoEvent args.bookingRefId args.event.eventId
          (actionOn q args.event.eventType (.obj o)) role userId time payload) := by
  have hrole : (extractParticipantRole args.event.payload).isOk = true := by
    rw [extractParticipantRole, isOk_bind h]
    rfl
  have htime : (extractEventTime ext args.event.payload).isOk = true := by
    rw [extractEventTime, isOk_bind h]
    rfl
  obtain ⟨role, hrole⟩ := isOk_iff.mp hrole
  obtain ⟨time, htime⟩ := isOk_iff.mp htime
  refine ⟨role, args.userIdForRole ((role.map Json.str).getD .null), time, fun q => ?_⟩
  have haction := extractAction_eq hv ht h q
  change BookingTimelineClassifier.extractAction ext (args.onQueue q).queueName
    (args.onQueue q).event.eventType SourceType.jitsi.value (args.onQueue q).event.payload = _
    at haction
  rw [handle, haction, ok_bind]
  change (extractParticipantRole args.event.payload >>= _) = _
  rw [hrole, ok_bind]
  change (extractEventTime ext args.event.payload >>= _) = _
  rw [htime, ok_bind]
  change (projectPayload ext (actionOn q args.event.eventType (.obj o)) args.event.payload >>= _) = _
  cases projectPayload ext (actionOn q args.event.eventType (.obj o)) args.event.payload <;> rfl

lemma storedPayload_eq (hv : JitsiVocabulary ext) (ht : args.event.eventType ∈ ext.jitsiEventTypes)
    (h : Payload.original args.event.payload = .ok (.obj o)) (q : String) :
    storedPayload ext args q =
      (projectPayload ext (actionOn q args.event.eventType (.obj o)) args.event.payload).toOption := by
  obtain ⟨role, userId, time, hhandle⟩ := handle_eq hv ht h
  rw [storedPayload, hhandle]
  cases projectPayload ext (actionOn q args.event.eventType (.obj o)) args.event.payload <;> rfl

lemma actionOn_jitsi (eventType : String) (original : Json) :
    actionOn "events.jitsi" eventType original = .str (removePrefix eventType JITSI_PREFIX) := by
  have hchat : "events.jitsi" ≠ "events.chat" := by decide
  rw [actionOn, if_neg fun h => hchat h.1, if_pos rfl]

lemma actionOn_other (eventType : String) {original : Json} (hq : q ≠ "events.jitsi")
    (htype : original.get? "type" = none) : actionOn q eventType original = .str eventType := by
  have hfalse : ¬(q = "events.chat" ∧ ((original.get? "type").getD .null).truthy = true) := by
    rw [htype]
    exact fun h => absurd h.2 (by decide)
  rw [actionOn, if_neg hfalse, if_neg hq]

/-- On the queue of the events the part that is kept is stored. -/
lemma storedPayload_jitsi (hv : JitsiVocabulary ext)
    (ht : args.event.eventType ∈ ext.jitsiEventTypes)
    (h : Payload.original args.event.payload = .ok (.obj o)) :
    storedPayload ext args "events.jitsi" =
      some ((Kept.ofEventType ext args.event.eventType).project (.obj o)) := by
  rw [storedPayload_eq hv ht h, actionOn_jitsi, projectPayload_str ext _ h,
    hv.ofAction_cut ht]
  rfl

/-- On every other queue an original without a type is stored whole. -/
lemma storedPayload_other (hv : JitsiVocabulary ext)
    (ht : args.event.eventType ∈ ext.jitsiEventTypes)
    (h : Payload.original args.event.payload = .ok (.obj o)) (hq : q ≠ "events.jitsi")
    (htype : (Json.obj o).get? "type" = none) : storedPayload ext args q = some (.obj o) := by
  rw [storedPayload_eq hv ht h, actionOn_other _ hq htype, projectPayload_str ext _ h,
    hv.ofAction_type ht]
  rfl

/-- The kept fields of an original, and one more. -/
def keptWith (kept : Kept) (o : List (String × Json)) (extra : Json) : List (String × Json) :=
  match kept with
  | .muted => ((Json.obj o).get? "muted").toList.map (("muted", ·)) ++ [("display_name", extra)]
  | .devices => ((Json.obj o).get? "devices").toList.map (("devices", ·)) ++ [("display_name", extra)]
  | _ => [("display_name", extra)]

lemma sameIn_keptWith {kept : Kept} (h : kept ≠ .everything) (o : List (String × Json))
    (extra : Json) : kept.SameIn (.obj o) (.obj (keptWith kept o extra)) := by
  cases kept with
  | nothing => trivial
  | muted =>
    change _ = (keptWith .muted o extra).lookup "muted"
    rw [keptWith]
    cases (Json.obj o).get? "muted" <;> rfl
  | devices =>
    change _ = (keptWith .devices o extra).lookup "devices"
    rw [keptWith]
    cases (Json.obj o).get? "devices" <;> rfl
  | everything => exact absurd rfl h

lemma keptWith_type (kept : Kept) (o : List (String × Json)) (extra : Json) :
    (Json.obj (keptWith kept o extra)).get? "type" = none := by
  change (keptWith kept o extra).lookup "type" = none
  unfold keptWith
  split
  · cases (Json.obj o).get? "muted" <;> rfl
  · cases (Json.obj o).get? "devices" <;> rfl
  · rfl

lemma keptWith_inj {kept : Kept} {extra extra' : Json}
    (h : keptWith kept o extra = keptWith kept o extra') : extra = extra' := by
  have hlast : (keptWith kept o extra).getLast? = (keptWith kept o extra').getLast? := by rw [h]
  unfold keptWith at hlast
  split at hlast <;> simpa using hlast

end Stored

section Independence

variable {ext : Externals} {args : HandleArgs} {o : List (String × Json)} {q₁ q₂ : String}

lemma original_of_get? {payload : Json} (h : payload.get? "original" = some (.obj o)) :
    Payload.original payload = .ok (.obj o) := by
  rw [Payload.original_eq_ok, h]
  cases payload with
  | obj fields => exact ⟨rfl, rfl⟩
  | _ => cases h

/-- Where not everything is kept, only the queue of the events hides the other fields. -/
lemma QueueIndependent.eq_jitsi (h : QueueIndependent ext args q₁ q₂) (hv : JitsiVocabulary ext)
    (ht : args.event.eventType ∈ ext.jitsiEventTypes)
    (ho : args.event.payload.get? "original" = some (.obj o))
    (hkept : Kept.ofEventType ext args.event.eventType ≠ .everything) {q : String}
    (hq : q = q₁ ∨ q = q₂) : q = "events.jitsi" := by
  by_contra hother
  have hstored (extra : Json) : storedPayload ext args q =
      some (.obj (keptWith (Kept.ofEventType ext args.event.eventType) o extra)) := by
    let other := keptWith (Kept.ofEventType ext args.event.eventType) o extra
    have hblind := h.blind (.obj [("original", .obj other)]) "" o other ho rfl
      (sameIn_keptWith hkept o extra) q hq
    rw [← hblind]
    exact storedPayload_other hv ht rfl hother (keptWith_type _ _ _)
  have hsame := (hstored .null).symm.trans (hstored (.bool true))
  rw [Option.some.injEq, Json.obj.injEq] at hsame
  cases keptWith_inj hsame

/-- On the queue of the events the payload is minimised. -/
lemma queueIndependent_jitsi (hv : JitsiVocabulary ext)
    (ht : args.event.eventType ∈ ext.jitsiEventTypes)
    (ho : args.event.payload.get? "original" = some (.obj o)) :
    QueueIndependent ext args "events.jitsi" "events.jitsi" := by
  have horiginal := original_of_get? ho
  have hstored := storedPayload_jitsi hv ht horiginal
  have hqueue {q : String} (hq : q = "events.jitsi" ∨ q = "events.jitsi") : q = "events.jitsi" :=
    hq.elim id id
  refine ⟨?_, fun q hq stored h => ?_, fun payload' hash o₁ o' ho₁ ho' hsame q hq => ?_⟩
  · obtain ⟨role, userId, time, hhandle⟩ := handle_eq hv ht horiginal
    have hpayload := projectPayload_str ext
      (removePrefix args.event.eventType JITSI_PREFIX) horiginal
    have hjitsi := hhandle "events.jitsi"
    rw [actionOn_jitsi, hpayload] at hjitsi
    exact ⟨_, hjitsi, hjitsi⟩
  · rw [hqueue hq, hstored, Option.some.injEq] at h
    rw [← h]
    exact Kept.project_atMost _ _
  · rw [ho, Option.some.injEq] at ho₁
    rw [hqueue hq, hstored, ho₁, hsame.project_eq]
    exact storedPayload_jitsi hv ht (original_of_get? ho')

/-- Where everything is kept, two queues agree if they name the same scalar action. -/
lemma queueIndependent_everything (hv : JitsiVocabulary ext)
    (ht : args.event.eventType ∈ ext.jitsiEventTypes)
    (ho : args.event.payload.get? "original" = some (.obj o))
    (hkept : Kept.ofEventType ext args.event.eventType = .everything) :
    QueueIndependent ext args q₁ q₂ ↔
      actionOn q₁ args.event.eventType (.obj o) = actionOn q₂ args.event.eventType (.obj o) ∧
        Payload.isContainer (actionOn q₁ args.event.eventType (.obj o)) = false := by
  have horiginal := original_of_get? ho
  obtain ⟨role, userId, time, hhandle⟩ := handle_eq hv ht horiginal
  have hisOk := projectPayload_isOk ext (actionOn q₁ args.event.eventType (.obj o)) horiginal
  constructor
  · intro h
    obtain ⟨stmt, h₁, h₂⟩ := h.same
    rw [hhandle, except_map_eq_ok] at h₁ h₂
    obtain ⟨payload₁, hpayload₁, hstmt₁⟩ := h₁
    obtain ⟨payload₂, _, hstmt₂⟩ := h₂
    rw [← hstmt₂, Option.some.injEq, ProjectionStmt.insertVideoEvent.injEq] at hstmt₁
    refine ⟨hstmt₁.2.2.1, ?_⟩
    rw [hpayload₁] at hisOk
    exact (Bool.not_eq_true' _).mp hisOk.symm
  · rintro ⟨hsame, hscalar⟩
    rw [hscalar] at hisOk
    obtain ⟨payload, hpayload⟩ := isOk_iff.mp hisOk
    have h₁ := hhandle q₁
    have h₂ := hhandle q₂
    rw [hpayload] at h₁
    rw [← hsame, hpayload] at h₂
    refine ⟨⟨_, h₁, h₂⟩, fun q _ stored _ => ?_, fun payload' hash o₁ o' ho₁ ho' hfields q _ => ?_⟩
    · rw [hkept]
      trivial
    · rw [hkept] at hfields
      rw [ho, Option.some.injEq] at ho₁
      have horiginal' : Payload.original payload' = .ok (.obj o) := by
        rw [original_of_get? ho', ← hfields, ← ho₁]
      have hother : storedPayload ext (args.withPayload payload' hash) q =
          (projectPayload ext (actionOn q args.event.eventType (.obj o)) payload').toOption :=
        @storedPayload_eq ext (args.withPayload payload' hash) o hv ht horiginal' q
      rw [hother, storedPayload_eq hv ht horiginal,
        projectPayload_congr _ (horiginal'.trans horiginal.symm)]

/-- A video event gives the same minimised statement from two queues if and only if both are the
queue of the events, or everything is kept and the two name the same scalar action. -/
theorem queueIndependent_iff (hv : JitsiVocabulary ext)
    (ht : args.event.eventType ∈ ext.jitsiEventTypes)
    (ho : args.event.payload.get? "original" = some (.obj o)) (q₁ q₂ : String) :
    QueueIndependent ext args q₁ q₂ ↔
      (q₁ = "events.jitsi" ∧ q₂ = "events.jitsi") ∨
        (Kept.ofEventType ext args.event.eventType = .everything ∧
          actionOn q₁ args.event.eventType (.obj o) = actionOn q₂ args.event.eventType (.obj o) ∧
          Payload.isContainer (actionOn q₁ args.event.eventType (.obj o)) = false) := by
  constructor
  · intro h
    by_cases hkept : Kept.ofEventType ext args.event.eventType = .everything
    · exact .inr ⟨hkept, (queueIndependent_everything hv ht ho hkept).mp h⟩
    · exact .inl ⟨h.eq_jitsi hv ht ho hkept (.inl rfl), h.eq_jitsi hv ht ho hkept (.inr rfl)⟩
  · rintro (⟨rfl, rfl⟩ | ⟨hkept, hsame⟩)
    · exact queueIndependent_jitsi hv ht ho
    · exact (queueIndependent_everything hv ht ho hkept).mpr hsame

end Independence

/-- The vocabulary of the test events, with all five of the special types. -/
def withDeviceList : Externals :=
  { Externals.sample with
    jitsiEventTypes := ["jitsi.conference.joined", "jitsi.conference.left",
      "jitsi.audio.mute_status_changed", "jitsi.video.mute_status_changed",
      "jitsi.device.list_changed"] }

/-- The client has joined the conference, under a display name. -/
def joinedByName : HandleArgs where
  event := {
    eventId := "1"
    eventType := EventType.jitsiConferenceJoined.value
    source := SourceType.jitsi.value
    occurredAt := 0
    bookingId := some "b"
    payload := .obj [("original", .obj [("display_name", .str "C"), ("email", .str "c@x")])]
    idempotencyKey := none
    traceId := none
    spanId := none
    dataschema := none
    payloadHash := "" }
  bookingRefId := 1
  organizerUserId := none
  clientUserId := none
  queueName := "events.unrouted"

theorem queueIndependent_joinedByName :
    QueueIndependent withDeviceList joinedByName "events.jitsi" "events.jitsi" := by
  refine (queueIndependent_iff ?_ ?_ rfl _ _).mpr (.inl ⟨rfl, rfl⟩)
  · refine ⟨?_, by decide, by decide, by decide⟩
    simp only [withDeviceList, List.forall_mem_cons, List.not_mem_nil, false_imp_iff, implies_true,
      and_true]
    exact ⟨⟨"conference.joined", rfl, by decide, by decide⟩,
      ⟨"conference.left", rfl, by decide, by decide⟩,
      ⟨"audio.mute_status_changed", rfl, by decide, by decide⟩,
      ⟨"video.mute_status_changed", rfl, by decide, by decide⟩,
      ⟨"device.list_changed", rfl, by decide, by decide⟩⟩
  · decide

/-- From the fallback queue the name and the e-mail are stored. -/
theorem not_queueIndependent_joinedByName :
    storedPayload withDeviceList joinedByName "events.unrouted" =
        some (.obj [("display_name", .str "C"), ("email", .str "c@x")]) ∧
      ¬QueueIndependent withDeviceList joinedByName "events.jitsi" "events.unrouted" := by
  refine ⟨rfl, fun h => ?_⟩
  have hstored := h.atMost "events.unrouted" (.inr rfl) _ rfl
  cases hstored

end VideoEventProjection

end EventSaver
