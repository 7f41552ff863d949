import EventSaver.Ingest

/-!
# The consumer

Consumption of one delivered message: in-process retries of transient failures, requeueing
when they are exhausted, and rejection of poison messages.
-/

namespace EventSaver
open JsonData EffectProgram

/-- `_is_transient`. -/
def isTransient : Exc → Bool
  | .operationalError => true
  | .interfaceError => true
  | .sqlTimeoutError => true
  | .osError => true
  | .timeoutError => true
  | .dbapiError connectionInvalidated => connectionInvalidated
  | _ => false

/-- The attributes and the data of a CloudEvent. -/
structure CloudEvent where
  id : String
  type : String
  source : String
  time : TimeValue
  bookingId : Option String
  data : Json
  idempotencykey : Option String
  traceid : Option String
  spanid : Option String
  dataschema : Option String

/-- What the broker delivers from a queue, `none` when `from_http` does not accept it. -/
structure Delivery where
  queueName : String
  event : Option CloudEvent

def CloudEvent.message (event : CloudEvent) (queueName : String) : Message where
  queueName := queueName
  eventId := event.id
  bookingId := event.bookingId
  eventType := event.type
  source := event.source
  time := event.time
  payload := EventParser.orEmpty event.data
  idempotencyKey := event.idempotencykey
  traceId := event.traceid
  spanId := event.spanid
  dataschema := event.dataschema

/-- How the consumption of a message ends: it returns, or raises one of the two exceptions the
broker understands. -/
inductive Settlement where
  | ack
  | nack (requeue : Bool)
  | reject
  deriving DecidableEq

namespace Settlement

/-- The outcome label of `record_message`. -/
def outcome : Settlement → String
  | .ack => "ok"
  | .nack _ => "retried"
  | .reject => "rejected"

end Settlement

namespace RabbitEventConsumerRunner

variable {σ : Type}

/-- `_save_with_retry`, with `attempts` attempts left and the number of the next one. `save`
is `save_event` at each attempt. -/
def saveWithRetry (save : Nat → σ → Except Exc Unit × σ) : Nat → Nat → σ → Settlement × σ
  | 0, _, s => (.nack true, s)
  | attempts + 1, attempt, s =>
    match save attempt s with
    | (.ok _, s') => (.ack, s')
    | (.error e, s') =>
      if isTransient e then saveWithRetry save attempts (attempt + 1) s' else (.reject, s')

/-- `_consume_message`. `record` is `record_message` for an event type and an outcome. -/
def consumeMessage (save : CloudEvent → Nat → σ → Except Exc Unit × σ)
    (record : String → String → σ → σ) (retryAttempts : Nat) (d : Delivery) (s : σ) :
    Settlement × σ :=
  match d.event with
  | none => (.reject, record "unknown" Settlement.reject.outcome s)
  | some event =>
    let settled := saveWithRetry (save event) retryAttempts 1 s
    (settled.1, record event.type settled.1.outcome settled.2)

variable {τ : Type} {save : Nat → σ → Except Exc Unit × σ}

/-- An acknowledged message has been saved by one of the attempts. -/
lemma exists_save_of_ack {attempts attempt : Nat} {s s' : σ}
    (h : saveWithRetry save attempts attempt s = (.ack, s')) :
    ∃ k t, save k t = (.ok (), s') := by
  induction attempts generalizing attempt s with
  | zero => cases h
  | succ attempts ih =>
    rw [saveWithRetry] at h
    rcases hsave : save attempt s with ⟨_ | _, t⟩
    · rw [hsave] at h
      dsimp only at h
      split at h
      · exact ih h
      · cases h
    · rw [hsave] at h
      cases h
      exact ⟨attempt, s, hsave⟩

/-- What every attempt preserves holds after the retries. -/
lemma saveWithRetry_inv {I : σ → Prop} (hsave : ∀ k s, I s → I (save k s).2)
    (attempts attempt : Nat) {s : σ} (hs : I s) :
    I (saveWithRetry save attempts attempt s).2 := by
  induction attempts generalizing attempt s with
  | zero => exact hs
  | succ attempts ih =>
    have hnext := hsave attempt s hs
    rw [saveWithRetry]
    generalize save attempt s = saved at hnext ⊢
    rcases saved with ⟨e | _, t⟩
    · dsimp only
      split
      · exact ih (attempt + 1) hnext
      · exact hnext
    · exact hnext

/-- The retries on a part of the state. -/
lemma saveWithRetry_map (π : τ → σ) (save : Nat → σ → Except Exc Unit × σ)
    (saveFine : Nat → τ → Except Exc Unit × τ)
    (hsave : ∀ k t, save k (π t) = ((saveFine k t).1, π (saveFine k t).2))
    (attempts attempt : Nat) (t : τ) :
    saveWithRetry save attempts attempt (π t) =
      ((saveWithRetry saveFine attempts attempt t).1,
        π (saveWithRetry saveFine attempts attempt t).2) := by
  induction attempts generalizing attempt t with
  | zero => rfl
  | succ attempts ih =>
    rw [saveWithRetry, saveWithRetry, hsave]
    rcases saveFine attempt t with ⟨e | _, t'⟩
    · dsimp only
      split
      · exact ih (attempt + 1) t'
      · rfl
    · rfl

end RabbitEventConsumerRunner

/-- The counters: persisted events by type, lifecycle transitions by action, and the consumed
messages by queue, event type and outcome. -/
structure Metrics where
  eventsTotal : String → Nat
  bookingLifecycleTotal : String → Nat
  messagesProcessed : List (String × String × String)

/-- The database and the counters of the process, which no rollback touches. -/
structure Service where
  db : Db
  metrics : Metrics

namespace Metrics

def zero : Metrics := ⟨fun _ => 0, fun _ => 0, []⟩

/-- One more under a label. -/
def inc (counter : String → Nat) (label : String) : String → Nat :=
  fun l => if l = label then counter l + 1 else counter l

/-- The effect of a call on the counters. -/
def count (metrics : Metrics) : Call → Metrics
  | .incEventsTotal eventType =>
    { metrics with eventsTotal := inc metrics.eventsTotal eventType }
  | .incBookingLifecycleTotal action =>
    { metrics with bookingLifecycleTotal := inc metrics.bookingLifecycleTotal action }
  | _ => metrics

def recordMessage (metrics : Metrics) (queue eventType outcome : String) : Metrics :=
  { metrics with messagesProcessed := metrics.messagesProcessed ++ [(queue, eventType, outcome)] }

end Metrics

/-- The clock and the fault of one save attempt. -/
structure Attempt where
  now : Timestamp
  fault : Fault Exc

namespace Service

variable (ext : Externals)

def execute : Handler Calls Exc Service := fun call s =>
  match SqlExecutor.execute ext call s.db with
  | .ok (reply, db) => .ok (reply, ⟨db, s.metrics.count call⟩)
  | .error e => .error e

def rollback (start reached : Service) : Service :=
  { reached with db := start.db.rollback reached.db }

def saveEvent (a : Attempt) (m : Message) (s : Service) : Except Exc Unit × Service :=
  transact (execute ext) rollback a.fault (IngestEvent.execute ext a.now m) s

/-- The consumption of a delivery whose save attempts take place as `attempts` says. -/
def consume (retryAttempts : Nat) (attempts : Nat → Attempt) (d : Delivery) (s : Service) :
    Settlement × Service :=
  RabbitEventConsumerRunner.consumeMessage
    (fun event attempt => saveEvent ext (attempts attempt) (event.message d.queueName))
    (fun eventType outcome s =>
      { s with metrics := s.metrics.recordMessage d.queueName eventType outcome })
    retryAttempts d s

variable {ext : Externals}

lemma refines : Refines (execute ext) (SqlExecutor.execute ext) Service.db := by
  intro call s
  rw [execute]
  rcases SqlExecutor.execute ext call s.db with e | ⟨reply, db⟩ <;> rfl

/-- On the database, a save attempt of the process is one of the store. -/
lemma saveEvent_eq (a : Attempt) (m : Message) (s : Service) :
    saveEventUnder ext a.fault a.now m s.db =
      ((saveEvent ext a m s).1, (saveEvent ext a m s).2.db) :=
  refines.transact (fun _ _ => rfl) a.fault (IngestEvent.execute ext a.now m) s

end Service

end EventSaver
