import EventSaver.ExactlyOnce
import EventSaver.FatalErrors
import EventSaver.Library.Transitions

/-!
# The flow of messages

Between its publication and its settlement a message is ready at the broker, held by the consumer
at one of its save attempts, or decided upon. The attempts of the messages held interleave in any
way, and the connection to the broker may break at any moment, whereupon it delivers again what it
has got no settlement for. A save attempt is one indivisible step of the flow: no other message's
statements come between those of its transaction.
-/

namespace EventSaver
open JsonData TableData EffectProgram Transitions

/-- Where the consumer stands with a message: before a save attempt, or past the last one. -/
inductive HeldPhase where
  | saving (event : CloudEvent) (attempt : Nat)
  | decided (settlement : Settlement)

structure Held where
  delivery : Delivery
  phase : HeldPhase

/-- The messages by where they are, the service, and what has happened so far: the publications
and the journal of the messages whose events were new. -/
structure Flow where
  published : List Delivery
  ready : List Delivery
  held : List Held
  acked : List Delivery
  deadLetters : List Delivery
  service : Service
  journal : Journal

namespace Flow

def initial : Flow := ⟨[], [], [], [], [], .initial, []⟩

/-- `record_message` for a settlement that has been decided. -/
def record (d : Delivery) (eventType : String) (settlement : Settlement) (s : Service) : Service :=
  { s with metrics := s.metrics.recordMessage d.queueName eventType settlement.outcome }

/-- The phase in which a settlement is decided, if it is. -/
def phaseOf (event : CloudEvent) (attempt : Nat) : Option Settlement → HeldPhase
  | some settlement => .decided settlement
  | none => .saving event attempt

def recordIf (d : Delivery) (eventType : String) : Option Settlement → Service → Service
  | some settlement => record d eventType settlement
  | none => id

/-- The settlement before the first attempt: a message that does not parse is rejected, and
without any attempts a message is requeued. -/
def settledAtFirst (n : Nat) : Option Settlement := if n = 0 then some (.nack true) else none

/-- The settlement that the outcome of an attempt leads to, unless another attempt follows. -/
def settledAfter (n attempt : Nat) : Except Exc Unit → Option Settlement
  | .ok _ => some .ack
  | .error e =>
    if isTransient e then if attempt < n then none else some (.nack true) else some .reject

/-- A message as the consumer begins with it. -/
def receive (n : Nat) (d : Delivery) (f : Flow) : Flow :=
  match d.event with
  | none =>
    { f with
      held := f.held ++ [⟨d, .decided .reject⟩]
      service := record d "unknown" .reject f.service }
  | some event =>
    { f with
      held := f.held ++ [⟨d, phaseOf event 1 (settledAtFirst n)⟩]
      service := recordIf d event.type (settledAtFirst n) f.service }

/-- A save attempt for a message held. -/
def attempt (ext : Externals) (n : Nat) (before after : List Held) (d : Delivery)
    (event : CloudEvent) (k : Nat) (a : Attempt) (f : Flow) : Flow :=
  let saved := Service.saveJournaled ext a (event.message d.queueName) (f.service, f.journal)
  let settled := settledAfter n k saved.1
  { f with
    held := before ++ ⟨d, phaseOf event (k + 1) settled⟩ :: after
    service := recordIf d event.type settled saved.2.1
    journal := saved.2.2 }

/-- The broker gets a settlement. -/
def settle (before after : List Held) (d : Delivery) (settlement : Settlement) (f : Flow) : Flow :=
  let f := { f with held := before ++ after }
  match settlement with
  | .ack => { f with acked := f.acked ++ [d] }
  | .nack true => { f with ready := f.ready ++ [d] }
  | .nack false => { f with deadLetters := f.deadLetters ++ [d] }
  | .reject => { f with deadLetters := f.deadLetters ++ [d] }

end Flow

inductive FlowAction where
  | publish
  | deliver
  | attempt (a : Attempt)
  | settle
  | disconnect

/-- The steps of the flow, for `n` attempts. -/
inductive Flow.Step (ext : Externals) (n : Nat) : FlowAction → Flow → Flow → Prop
  | publish (f : Flow) (d : Delivery) :
    Step ext n .publish f { f with published := f.published ++ [d], ready := f.ready ++ [d] }
  | deliver {f : Flow} {before after : List Delivery} {d : Delivery}
    (hready : f.ready = before ++ d :: after) :
    Step ext n .deliver f (Flow.receive n d { f with ready := before ++ after })
  | attempt {f : Flow} {before after : List Held} {d : Delivery} {event : CloudEvent} {k : Nat}
    (a : Attempt) (hheld : f.held = before ++ ⟨d, .saving event k⟩ :: after) :
    Step ext n (.attempt a) f (Flow.attempt ext n before after d event k a f)
  | settle {f : Flow} {before after : List Held} {d : Delivery} {settlement : Settlement}
    (hheld : f.held = before ++ ⟨d, .decided settlement⟩ :: after) :
    Step ext n .settle f (Flow.settle before after d settlement f)
  | disconnect (f : Flow) :
    Step ext n .disconnect f
      { f with ready := f.ready ++ f.held.map Held.delivery, held := [] }

namespace FlowAction

/-- An action of the broker or the consumer, with nothing going wrong. -/
def Quiet : FlowAction → Prop
  | .deliver => True
  | .attempt a => a.fault = .none
  | .settle => True
  | _ => False

/-- An action in which at most transient errors come from outside. -/
def Transient : FlowAction → Prop
  | .attempt a => ∀ e, a.fault.exception = some e → isTransient e = true
  | _ => True

end FlowAction

section Consumption

variable {ext : Externals} {n : Nat} {f : Flow} {d : Delivery} {event : CloudEvent}

variable (ext f d event) in
/-- The attempts of one message, made in a row, end as its consumption does. -/
lemma retry_run (attempts : Nat → Attempt) (left k : Nat) (hleft : k + left = n) {before : List Held}
    (hheld : f.held = before ++ [⟨d, .saving event k⟩]) :
    let settled := RabbitEventConsumerRunner.saveWithRetry (fun attempt =>
      Service.saveJournaled ext (attempts attempt) (event.message d.queueName)) (left + 1) k
      (f.service, f.journal)
    ∃ labels, Run (Flow.Step ext n) (fun _ => True) labels f
      { f with
        held := before ++ [⟨d, .decided settled.1⟩]
        service := Flow.record d event.type settled.1 settled.2.1
        journal := settled.2.2 } := by
  induction left generalizing k f with
  | zero =>
    have hstep := @Flow.Step.attempt ext n f before [] d event k (attempts k) hheld
    refine ⟨[.attempt (attempts k)], .cons trivial hstep ?_⟩
    rw [Flow.attempt, RabbitEventConsumerRunner.saveWithRetry]
    rcases Service.saveJournaled ext (attempts k) (event.message d.queueName)
      (f.service, f.journal) with ⟨e | _, saved⟩
    · cases htransient : isTransient e with
      | true =>
        have hlast : Flow.settledAfter n k (.error e) = some (.nack true) := by
          rw [Flow.settledAfter, htransient, if_pos rfl, if_neg (by omega)]
        dsimp only
        rw [hlast, htransient, if_pos rfl]
        exact .nil _
      | false =>
        have hfatal : Flow.settledAfter n k (.error e) = some .reject := by
          rw [Flow.settledAfter, htransient, if_neg Bool.false_ne_true]
        dsimp only
        rw [hfatal, htransient, if_neg Bool.false_ne_true]
        exact .nil _
    · exact .nil _
  | succ left ih =>
    have hstep := @Flow.Step.attempt ext n f before [] d event k (attempts k) hheld
    rw [RabbitEventConsumerRunner.saveWithRetry]
    rw [Flow.attempt] at hstep
    rcases hsaved : Service.saveJournaled ext (attempts k) (event.message d.queueName)
      (f.service, f.journal) with ⟨e | _, saved⟩
    · rw [hsaved] at hstep
      cases htransient : isTransient e with
      | true =>
        have hnext : Flow.settledAfter n k (.error e) = none := by
          rw [Flow.settledAfter, htransient, if_pos rfl, if_pos (by omega)]
        dsimp only at hstep ⊢
        rw [hnext] at hstep
        rw [htransient, if_pos rfl]
        obtain ⟨labels, hrun⟩ := ih { f with
          held := before ++ [⟨d, .saving event (k + 1)⟩]
          service := saved.1
          journal := saved.2 } (k + 1) (by omega) rfl
        exact ⟨_ :: labels, .cons trivial hstep hrun⟩
      | false =>
        have hfatal : Flow.settledAfter n k (.error e) = some .reject := by
          rw [Flow.settledAfter, htransient, if_neg Bool.false_ne_true]
        dsimp only at hstep ⊢
        rw [hfatal] at hstep
        rw [htransient, if_neg Bool.false_ne_true]
        exact ⟨_, .cons trivial hstep (.nil _)⟩
    · rw [hsaved] at hstep
      exact ⟨_, .cons trivial hstep (.nil _)⟩

/-- The flow refines the consumption of single messages: a message that is received and has its
attempts in a row is settled as `consume` settles it. -/
theorem consume_run (f : Flow) (attempts : Nat → Attempt) {before after : List Delivery}
    (hready : f.ready = before ++ d :: after) :
    let consumed := Service.consumeJournaled ext n ⟨d, attempts⟩ (f.service, f.journal)
    ∃ labels, Run (Flow.Step ext n) (fun _ => True) labels f
      { f with
        ready := before ++ after
        held := f.held ++ [⟨d, .decided consumed.1⟩]
        service := consumed.2.1
        journal := consumed.2.2 } := by
  have hdeliver := @Flow.Step.deliver ext n f before after d hready
  rw [Flow.receive] at hdeliver
  rw [Service.consumeJournaled, RabbitEventConsumerRunner.consumeMessage]
  cases hevent : d.event with
  | none =>
    rw [hevent] at hdeliver
    exact ⟨_, .cons trivial hdeliver (.nil _)⟩
  | some event =>
    rw [hevent] at hdeliver
    cases n with
    | zero => exact ⟨_, .cons trivial hdeliver (.nil _)⟩
    | succ n =>
      obtain ⟨labels, hrun⟩ := @retry_run ext (n + 1) { f with
        ready := before ++ after
        held := f.held ++ [⟨d, .saving event 1⟩] } d event attempts n 1 (by omega) f.held rfl
      exact ⟨_ :: labels, .cons trivial hdeliver hrun⟩

end Consumption

section Safety

variable (ext : Externals)

/-- The event of a message is stored. -/
def Db.Saved (db : Db) (d : Delivery) : Prop :=
  ∃ event, d.event = some event ∧ db.Stores (event.message d.queueName)

/-- The invariant of the flow. -/
structure Flow.Inv (f : Flow) : Prop where
  places : f.published.Perm
    (f.ready ++ f.held.map Held.delivery ++ f.acked ++ f.deadLetters)
  follows : Service.Follows ext (f.service, f.journal)
  journal : ∀ entry ∈ f.journal, ∃ d ∈ f.published, ∃ event, d.event = some event ∧
    entry.2 = event.message d.queueName
  saving : ∀ h ∈ f.held, ∀ event k, h.phase = .saving event k → h.delivery.event = some event
  decided : ∀ h ∈ f.held, h.phase = .decided .ack → f.service.db.Saved h.delivery
  acked : ∀ d ∈ f.acked, f.service.db.Saved d

variable {ext} {n : Nat} {f f' : Flow} {action : FlowAction}

lemma Db.Saved.mono {db db' : Db} {d : Delivery} (h : db.Saved d)
    (hsub : db.tables.events ⊆ db'.tables.events) : db'.Saved d := by
  obtain ⟨event, hevent, hstores⟩ := h
  exact ⟨event, hevent, hstores.mono hsub⟩

lemma Flow.recordIf_db (d : Delivery) (eventType : String) (settled : Option Settlement)
    (s : Service) : (recordIf d eventType settled s).db = s.db := by
  cases settled <;> rfl

/-- Counting a message changes nothing that the journal is about. -/
lemma Service.Follows.recordIf {s : Service} {journal : Journal}
    (h : Service.Follows ext (s, journal)) (d : Delivery) (eventType : String)
    (settled : Option Settlement) :
    Service.Follows ext (Flow.recordIf d eventType settled s, journal) := by
  cases settled with
  | none => exact h
  | some settlement => exact ⟨h.wellFormed, h.keys, h.once⟩

lemma Flow.inv_initial : Flow.Inv ext .initial where
  places := .nil
  follows := Service.follows_initial
  journal := List.forall_mem_nil _
  saving := List.forall_mem_nil _
  decided := List.forall_mem_nil _
  acked := List.forall_mem_nil _

/-- An attempt that is acknowledged has stored its event. -/
lemma saved_of_ack {k : Nat} {a : Attempt} {m : Message} {s : Service × Journal}
    (h : Flow.settledAfter n k (Service.saveJournaled ext a m s).1 = some .ack) :
    (Service.saveJournaled ext a m s).2.1.db.Stores m := by
  rcases hsaved : Service.saveEvent ext a m s.1 with ⟨e | _, t⟩
  · rw [Service.saveJournaled, hsaved, Flow.settledAfter] at h
    split at h
    · split at h <;> cases h
    · cases h
  · have hcommits := commits_of_transact_ok (Service.execute ext) Service.rollback hsaved
    exact Service.stores_of_commits hcommits

lemma Flow.Inv.attempt (h : f.Inv ext) {before after : List Held} {d : Delivery}
    {event : CloudEvent} {k : Nat} (a : Attempt)
    (hheld : f.held = before ++ ⟨d, .saving event k⟩ :: after) :
    (Flow.attempt ext n before after d event k a f).Inv ext := by
  have hmem : (⟨d, .saving event k⟩ : Held) ∈ f.held := by
    rw [hheld]
    exact List.mem_append_right _ List.mem_cons_self
  have hevent : d.event = some event := h.saving _ hmem event k rfl
  have hpublished : d ∈ f.published := by
    rw [h.places.mem_iff]
    exact List.mem_append_left _ (List.mem_append_left _
      (List.mem_append_right _ (List.mem_map_of_mem hmem)))
  have hothers {held : Held} (hother : held ∈ before ∨ held ∈ after) : held ∈ f.held := by
    rw [hheld, List.mem_append, List.mem_cons]
    exact hother.imp_right .inr
  have hevents : f.service.db.tables.events ⊆
      (Flow.attempt ext n before after d event k a f).service.db.tables.events := by
    rw [Flow.attempt, Flow.recordIf_db]
    exact Service.saveEvent_events a _ f.service
  refine ⟨?_, ?_, ?_, ?_, ?_, fun d' hd' => (h.acked d' hd').mono hevents⟩
  · have hplaces := h.places
    rw [hheld, List.map_append, List.map_cons] at hplaces
    rwa [Flow.attempt, List.map_append, List.map_cons]
  · exact (h.follows.saveJournaled a _).recordIf d event.type _
  · intro entry hentry
    rw [Flow.attempt, Service.saveJournaled] at hentry
    dsimp only at hentry
    split at hentry
    · rcases List.mem_append.mp hentry with hentry | hentry
      · exact h.journal entry hentry
      · rw [List.mem_singleton.mp hentry]
        exact ⟨d, hpublished, event, hevent, rfl⟩
    · exact h.journal entry hentry
  · intro held hin event' k' hphase
    rw [Flow.attempt, List.mem_append, List.mem_cons] at hin
    rcases hin with hin | rfl | hin
    · exact h.saving held (hothers (.inl hin)) event' k' hphase
    · dsimp only at hphase ⊢
      cases hsettled : Flow.settledAfter n k (Service.saveJournaled ext a
        (event.message d.queueName) (f.service, f.journal)).1 with
      | none =>
        rw [hsettled] at hphase
        cases hphase
        exact hevent
      | some settlement =>
        rw [hsettled] at hphase
        cases hphase
    · exact h.saving held (hothers (.inr hin)) event' k' hphase
  · intro held hin hphase
    rw [Flow.attempt, List.mem_append, List.mem_cons] at hin
    rcases hin with hin | rfl | hin
    · exact (h.decided held (hothers (.inl hin)) hphase).mono hevents
    · refine ⟨event, hevent, ?_⟩
      rw [Flow.attempt, Flow.recordIf_db]
      refine saved_of_ack (n := n) (k := k) ?_
      dsimp only at hphase
      cases hsettled : Flow.settledAfter n k (Service.saveJournaled ext a
        (event.message d.queueName) (f.service, f.journal)).1 with
      | none =>
        rw [hsettled] at hphase
        cases hphase
      | some settlement =>
        rw [hsettled] at hphase
        cases hphase
        rfl
    · exact (h.decided held (hothers (.inr hin)) hphase).mono hevents

/-- A message that the consumer begins with stays accounted for. -/
lemma Flow.Inv.hold {before after : List Delivery} {held : Held} {service : Service}
    (h : f.Inv ext) (hready : f.ready = before ++ held.delivery :: after)
    (hsaving : ∀ event k, held.phase = .saving event k → held.delivery.event = some event)
    (hdecided : held.phase ≠ .decided .ack) (hdb : service.db = f.service.db) :
    Flow.Inv ext { f with
      ready := before ++ after
      held := f.held ++ [held]
      service := service } := by
  refine ⟨?_, ⟨?_, ?_, ?_⟩, h.journal, ?_, ?_, ?_⟩
  · have hplaces := h.places
    classical
    rw [List.perm_iff_count] at hplaces ⊢
    intro x
    have hx := hplaces x
    rw [hready] at hx
    simp only [List.count_append, List.count_cons, List.count_nil, List.map_append, List.map_cons,
      List.map_nil] at hx ⊢
    omega
  · rw [hdb]
    exact h.follows.wellFormed
  · rw [hdb]
    exact h.follows.keys
  · rw [hdb]
    exact h.follows.once
  · intro other hin event k hphase
    rcases List.mem_append.mp hin with hin | hin
    · exact h.saving other hin event k hphase
    · rw [List.mem_singleton.mp hin] at hphase ⊢
      exact hsaving event k hphase
  · intro other hin hphase
    rw [hdb]
    rcases List.mem_append.mp hin with hin | hin
    · exact h.decided other hin hphase
    · rw [List.mem_singleton.mp hin] at hphase
      exact absurd hphase hdecided
  · rw [hdb]
    exact h.acked

lemma Flow.Inv.receive {before after : List Delivery} {d : Delivery} (h : f.Inv ext)
    (hready : f.ready = before ++ d :: after) :
    (Flow.receive n d { f with ready := before ++ after }).Inv ext := by
  unfold Flow.receive
  split
  · refine h.hold hready (fun event k hphase => ?_) (fun hphase => ?_) rfl <;> cases hphase
  · rename_i event hevent
    refine h.hold hready (fun event' k hphase => ?_) (fun hphase => ?_) (Flow.recordIf_db _ _ _ _)
    · unfold Flow.settledAtFirst at hphase
      split at hphase <;> cases hphase
      exact hevent
    · unfold Flow.settledAtFirst at hphase
      split at hphase <;> cases hphase

/-- A settlement moves the message to where it says. -/
lemma Flow.Inv.settle {before after : List Held} {d : Delivery} {settlement : Settlement}
    (h : f.Inv ext) (hheld : f.held = before ++ ⟨d, .decided settlement⟩ :: after) :
    (Flow.settle before after d settlement f).Inv ext := by
  have hothers {held : Held} (hother : held ∈ before ++ after) : held ∈ f.held := by
    rw [hheld, List.mem_append, List.mem_cons]
    exact (List.mem_append.mp hother).imp_right .inr
  have hplaces := h.places
  rw [hheld] at hplaces
  have hsaving := fun held hin => h.saving held (hothers hin)
  have hdecided := fun held hin => h.decided held (hothers hin)
  have hmoved : f.published.Perm
      (f.ready ++ (before ++ after).map Held.delivery ++ f.acked ++ f.deadLetters ++ [d]) := by
    classical
    rw [List.perm_iff_count] at hplaces ⊢
    intro x
    have hx := hplaces x
    simp only [List.count_append, List.count_cons, List.count_nil, List.map_append,
      List.map_cons] at hx ⊢
    omega
  cases settlement with
  | ack =>
    refine { h with places := ?_, saving := hsaving, decided := hdecided, acked := ?_ }
    · refine hmoved.trans ?_
      rw [List.append_assoc, Flow.settle, ← List.append_assoc _ f.acked [d],
        List.append_assoc _ [d] f.deadLetters]
      exact List.perm_append_comm.append_left _
    · intro d' hd'
      rcases List.mem_append.mp hd' with hd' | hd'
      · exact h.acked d' hd'
      · rw [List.mem_singleton.mp hd']
        refine h.decided ⟨d, .decided .ack⟩ ?_ rfl
        rw [hheld]
        exact List.mem_append_right _ List.mem_cons_self
  | nack requeue =>
    cases requeue with
    | true =>
      refine { h with places := ?_, saving := hsaving, decided := hdecided }
      refine hmoved.trans (List.perm_append_comm.trans ?_)
      simp only [Flow.settle, List.append_assoc]
      rw [← List.append_assoc [d], ← List.append_assoc f.ready]
      exact List.perm_append_comm.append_right _
    | false =>
      refine { h with places := ?_, saving := hsaving, decided := hdecided }
      rw [Flow.settle, ← List.append_assoc]
      exact hmoved
  | reject =>
    refine { h with places := ?_, saving := hsaving, decided := hdecided }
    rw [Flow.settle, ← List.append_assoc]
    exact hmoved

/-- Every step keeps the invariant. -/
theorem Flow.Inv.step (h : f.Inv ext) (hstep : Flow.Step ext n action f f') : f'.Inv ext := by
  cases hstep with
  | publish d =>
    refine { h with places := ?_, journal := fun entry hentry => ?_ }
    · have hplaces := h.places
      classical
      rw [List.perm_iff_count] at hplaces ⊢
      intro x
      have hx := hplaces x
      simp only [List.count_append] at hx ⊢
      omega
    · obtain ⟨d', hd', hevent⟩ := h.journal entry hentry
      exact ⟨d', List.mem_append_left _ hd', hevent⟩
  | deliver hready => exact h.receive hready
  | attempt a hheld => exact h.attempt a hheld
  | settle hheld => exact h.settle hheld
  | disconnect =>
    refine { h with places := ?_, saving := List.forall_mem_nil _, decided := List.forall_mem_nil _ }
    have hplaces := h.places
    rwa [List.map_nil, List.append_nil]

/-- In every run, with any faults, interleavings and broken connections: no message is lost or
doubled on its way, what is acknowledged is stored, and the database holds what the published
messages of a journal without duplicates leave when each is saved once. -/
theorem flow_exactly_once {labels : List FlowAction}
    (h : Run (Flow.Step ext n) (fun _ => True) labels .initial f) :
    f.published.Perm (f.ready ++ f.held.map Held.delivery ++ f.acked ++ f.deadLetters) ∧
      (∀ d ∈ f.acked, f.service.db.Saved d) ∧
      (∀ entry ∈ f.journal, ∃ d ∈ f.published, ∃ event, d.event = some event ∧
        entry.2 = event.message d.queueName) ∧
      f.journal.Pairwise (fun entry entry' => ¬ entry.2.SharesKey entry'.2) ∧
      ∃ db, onceEach ext f.journal .empty = .ok db ∧
        f.service.db.tables.SameContent db.tables := by
  have hinv := h.invariant (fun _ _ _ _ hstep hinv => Flow.Inv.step hinv hstep)
    Flow.inv_initial
  obtain ⟨db, honce, hdb, hcontent⟩ := hinv.follows.once
  exact ⟨hinv.places, hinv.acked, hinv.journal, hinv.follows.pairwise, db, honce,
    sameContent_of_content_eq hinv.follows.wellFormed hdb hcontent.symm⟩

end Safety

/-- A message whose first commit is not acknowledged before the connection breaks is delivered
again, and is found stored. -/
theorem flow_exactly_once_redelivered :
    ∃ f : Flow, f.journal.length = 1 ∧ f.acked = [Service.lostAcknowledgement.delivery] ∧
      f.service.db.Saved Service.lostAcknowledgement.delivery := by
  let d := Service.lostAcknowledgement.delivery
  let a := Service.lostAcknowledgement.attempts
  have hrun : Run (Flow.Step .sample 2) (fun _ => True)
      [.publish, .deliver, .attempt (a 1), .disconnect, .deliver, .attempt (a 2), .settle]
      .initial _ :=
    .cons trivial (.publish _ d) <|
    .cons trivial (@Flow.Step.deliver _ _ _ [] [] d rfl) <|
    .cons trivial (@Flow.Step.attempt _ _ _ [] [] d Service.createdEvent 1 (a 1) rfl) <|
    .cons trivial (.disconnect _) <|
    .cons trivial (@Flow.Step.deliver _ _ _ [] [] d rfl) <|
    .cons trivial (@Flow.Step.attempt _ _ _ [] [] d Service.createdEvent 1 (a 2) rfl) <|
    .cons trivial (@Flow.Step.settle _ _ _ [] [] d .ack rfl) (.nil _)
  exact ⟨_, rfl, rfl, (flow_exactly_once hrun).2.1 d (List.mem_singleton_self d)⟩

section Progress

variable {ext : Externals} {n : Nat} {f f' : Flow} {action : FlowAction}

/-- The steps that a message is away from its settlement, at most. -/
def HeldPhase.distance : HeldPhase → Nat
  | .saving _ _ => 2
  | .decided (.nack _) => 4
  | .decided _ => 1

def Flow.distance (f : Flow) : Nat :=
  3 * f.ready.length + (f.held.map fun h => h.phase.distance).sum

/-- An attempt that nothing goes wrong around decides upon its message for good. -/
lemma settledAfter_quiet (n k : Nat) {a : Attempt} (m : Message) (s : Service × Journal)
    (ha : a.fault = .none) :
    Flow.settledAfter n k (Service.saveJournaled ext a m s).1 = some .ack ∨
      Flow.settledAfter n k (Service.saveJournaled ext a m s).1 = some .reject := by
  have hsame := @Service.saveEvent_eq ext a m s.1
  rcases hsaved : Service.saveEvent ext a m s.1 with ⟨e | _, t⟩
  · right
    rw [hsaved, ha] at hsame
    have hfatal : Fatal e := fatal_of_saveEvent hsame
    rw [Service.saveJournaled, hsaved, Flow.settledAfter, hfatal, if_neg Bool.false_ne_true]
  · left
    rw [Service.saveJournaled, hsaved]
    rfl

/-- Every quiet step brings a message closer to its settlement. -/
lemma distance_lt (hn : n ≠ 0) (hquiet : action.Quiet) (hstep : Flow.Step ext n action f f') :
    f'.distance < f.distance := by
  cases hstep with
  | publish d => cases hquiet
  | disconnect => cases hquiet
  | @deliver _ before after d hready =>
    unfold Flow.distance Flow.receive
    rw [hready]
    split
    · simp [HeldPhase.distance]
      omega
    · rw [Flow.settledAtFirst, if_neg hn]
      simp [Flow.phaseOf, HeldPhase.distance]
      omega
  | @attempt _ before after d event k a hheld =>
    have hsettled := @settledAfter_quiet ext n k a (event.message d.queueName)
      (f.service, f.journal) hquiet
    unfold Flow.distance Flow.attempt
    dsimp only
    rw [hheld]
    rcases hsettled with hack | hreject
    · rw [hack]
      simp [Flow.phaseOf, HeldPhase.distance]
    · rw [hreject]
      simp [Flow.phaseOf, HeldPhase.distance]
  | @settle _ before after d settlement hheld =>
    unfold Flow.distance
    rw [hheld]
    cases settlement with
    | ack => simp [Flow.settle, HeldPhase.distance]
    | nack requeue =>
      cases requeue with
      | true =>
        simp [Flow.settle, HeldPhase.distance]
        omega
      | false => simp [Flow.settle, HeldPhase.distance]
    | reject => simp [Flow.settle, HeldPhase.distance]

lemma Flow.distance_le (f : Flow) : f.distance ≤ 3 * f.ready.length + 4 * f.held.length := by
  have hphase (phase : HeldPhase) : phase.distance ≤ 4 := by
    unfold HeldPhase.distance
    split <;> omega
  have hheld (held : List Held) : (held.map fun h => h.phase.distance).sum ≤ 4 * held.length := by
    induction held with
    | nil => exact Nat.zero_le _
    | cons h rest ih =>
      have hfirst := hphase h.phase
      rw [List.map_cons, List.sum_cons, List.length_cons]
      omega
  have hsum := hheld f.held
  unfold Flow.distance
  omega

/-- Where no quiet step is left, no message is on its way. -/
lemma settled_of_ended (h : Ended (Flow.Step ext n) FlowAction.Quiet f) :
    f.ready = [] ∧ f.held = [] := by
  constructor
  · cases hready : f.ready with
    | nil => rfl
    | cons d rest => exact absurd (@Flow.Step.deliver ext n f [] rest d hready) (h .deliver _ trivial)
  · cases hheld : f.held with
    | nil => rfl
    | cons held rest =>
      obtain ⟨d, phase⟩ := held
      cases phase with
      | saving event k =>
        exact absurd (@Flow.Step.attempt ext n f [] rest d event k ⟨0, .none⟩ hheld)
          (h (.attempt ⟨0, .none⟩) _ rfl)
      | decided settlement =>
        exact absurd (@Flow.Step.settle ext n f [] rest d settlement hheld) (h .settle _ trivial)

end Progress

/-- After any run, once nothing goes wrong and nothing is published any more, every message on its
way is settled for good within a few steps, and none is requeued for ever. -/
theorem flow_drains (ext : Externals) {n : Nat} (hn : n ≠ 0) {labels : List FlowAction} {f : Flow}
    (h : Run (Flow.Step ext n) (fun _ => True) labels .initial f) :
    (∃ quiet f', Run (Flow.Step ext n) FlowAction.Quiet quiet f f' ∧
        Ended (Flow.Step ext n) FlowAction.Quiet f') ∧
      ∀ quiet f', Run (Flow.Step ext n) FlowAction.Quiet quiet f f' →
        quiet.length ≤ 3 * f.ready.length + 4 * f.held.length ∧
        (Ended (Flow.Step ext n) FlowAction.Quiet f' →
          f'.ready = [] ∧ f'.held = [] ∧ f.published.Perm (f'.acked ++ f'.deadLetters) ∧
            ∀ d ∈ f'.acked, f'.service.db.Saved d) := by
  have hlowers : ∀ action f f', FlowAction.Quiet action → Flow.Step ext n action f f' →
      f'.distance < f.distance := fun _ _ _ => distance_lt hn
  refine ⟨exists_run_ended hlowers f, fun quiet f' hquiet => ⟨?_, ?_⟩⟩
  · have hlength := hquiet.length_add_le hlowers
    have hdistance := f.distance_le
    omega
  · intro hended
    obtain ⟨hready, hheld⟩ := settled_of_ended hended
    have hinv := (h.append (hquiet.mono fun _ _ => trivial)).invariant
      (fun _ _ _ _ hstep hinv => Flow.Inv.step hinv hstep) Flow.inv_initial
    have hpublished : f'.published = f.published := by
      refine hquiet.invariant (I := fun g => g.published = f.published) ?_ rfl
      intro i s t hi hstep hs
      cases hstep with
      | publish d => cases hi
      | disconnect => cases hi
      | deliver hready =>
        rw [← hs, Flow.receive]
        split <;> rfl
      | attempt a hheld => exact hs
      | @settle _ before after d settlement hheld =>
        rw [← hs]
        unfold Flow.settle
        split <;> rfl
    have hplaces := hinv.places
    rw [hready, hheld, hpublished] at hplaces
    exact ⟨hready, hheld, hplaces, hinv.acked⟩

/-- After the connection has broken, what is published is settled. -/
theorem flow_drains_disconnected :
    ∃ f' : Flow, f'.ready = [] ∧ f'.held = [] ∧
      [Service.lostAcknowledgement.delivery].Perm (f'.acked ++ f'.deadLetters) := by
  let d := Service.lostAcknowledgement.delivery
  have hrun : Run (Flow.Step .sample 2) (fun _ => True) [.publish, .deliver, .disconnect]
      .initial _ :=
    .cons trivial (.publish _ d) <|
    .cons trivial (@Flow.Step.deliver _ _ _ [] [] d rfl) <|
    .cons trivial (.disconnect _) (.nil _)
  obtain ⟨⟨quiet, f', hquiet, hended⟩, hdrains⟩ := flow_drains .sample (by decide) hrun
  obtain ⟨hready, hheld, hplaces, _⟩ := (hdrains quiet f' hquiet).2 hended
  exact ⟨f', hready, hheld, hplaces⟩

section DeadLetters

variable (ext : Externals)

/-- A message that does not parse, or that some reachable database rejects when nothing goes
wrong. -/
def Poison (d : Delivery) : Prop :=
  d.event = none ∨ ∃ event now db e, d.event = some event ∧ Db.Reachable ext db ∧
    (saveEvent ext now (event.message d.queueName) db).1 = .error e ∧ Fatal e

/-- Only poison messages are rejected. -/
structure Flow.OnlyPoison (f : Flow) : Prop where
  reachable : f.service.db.Reachable ext
  requeues : ∀ h ∈ f.held, h.phase ≠ .decided (.nack false)
  rejected : ∀ h ∈ f.held, h.phase = .decided .reject → Poison ext h.delivery
  deadLetters : ∀ d ∈ f.deadLetters, Poison ext d

variable {ext} {n : Nat} {f f' : Flow} {action : FlowAction}

/-- An attempt around which only transient errors happen rejects poison messages only. -/
lemma poison_of_reject {d : Delivery} {event : CloudEvent} {k : Nat} {a : Attempt}
    {s : Service × Journal} (hs : s.1.db.Reachable ext) (hevent : d.event = some event)
    (ha : ∀ e, a.fault.exception = some e → isTransient e = true)
    (h : Flow.settledAfter n k
      (Service.saveJournaled ext a (event.message d.queueName) s).1 = some .reject) :
    Poison ext d := by
  rcases hsaved : Service.saveEvent ext a (event.message d.queueName) s.1 with ⟨e | _, t⟩
  · rw [Service.saveJournaled, hsaved, Flow.settledAfter] at h
    have hfatal : Fatal e := by
      cases htransient : isTransient e with
      | false => exact htransient
      | true =>
        rw [htransient, if_pos rfl] at h
        split at h <;> cases h
    have hsame := @Service.saveEvent_eq ext a (event.message d.queueName) s.1
    rw [hsaved] at hsame
    obtain ⟨t', hrun⟩ := error_of_transact hsame fun hexception =>
      Bool.false_ne_true (hfatal.symm.trans (ha e hexception))
    refine .inr ⟨event, a.now, s.1.db, e, hevent, hs, ?_, hfatal⟩
    rw [saveEvent, saveEventUnder, transact_none, hrun]
  · rw [Service.saveJournaled, hsaved, Flow.settledAfter] at h
    cases h

lemma Flow.OnlyPoison.step (h : f.OnlyPoison ext) (hinv : f.Inv ext) (hok : action.Transient)
    (hstep : Flow.Step ext n action f f') : f'.OnlyPoison ext := by
  cases hstep with
  | publish d => exact { h with }
  | disconnect =>
    exact { h with requeues := List.forall_mem_nil _, rejected := List.forall_mem_nil _ }
  | @deliver _ before after d hready =>
    unfold Flow.receive
    split
    · rename_i hevent
      refine { h with requeues := ?_, rejected := ?_ }
      · exact List.forall_mem_append.mpr ⟨h.requeues, List.forall_mem_singleton.mpr (by simp)⟩
      · exact List.forall_mem_append.mpr
          ⟨h.rejected, List.forall_mem_singleton.mpr fun _ => .inl hevent⟩
    · have hfirst : Flow.settledAtFirst n = none ∨ Flow.settledAtFirst n = some (.nack true) := by
        unfold Flow.settledAtFirst
        split
        · exact .inr rfl
        · exact .inl rfl
      refine ⟨?_, ?_, ?_, h.deadLetters⟩
      · rw [Flow.recordIf_db]
        exact h.reachable
      · refine List.forall_mem_append.mpr ⟨h.requeues, List.forall_mem_singleton.mpr ?_⟩
        rcases hfirst with hfirst | hfirst <;> rw [hfirst] <;> simp [Flow.phaseOf]
      · refine List.forall_mem_append.mpr ⟨h.rejected, List.forall_mem_singleton.mpr ?_⟩
        rcases hfirst with hfirst | hfirst <;> rw [hfirst] <;> simp [Flow.phaseOf]
  | @attempt _ before after d event k a hheld =>
    have hmem : (⟨d, .saving event k⟩ : Held) ∈ f.held := by
      rw [hheld]
      exact List.mem_append_right _ List.mem_cons_self
    have hevent : d.event = some event := hinv.saving _ hmem event k rfl
    have hrequeues := h.requeues
    have hrejected := h.rejected
    rw [hheld, List.forall_mem_append, List.forall_mem_cons] at hrequeues hrejected
    unfold Flow.attempt
    dsimp only
    refine ⟨?_, ?_, ?_, h.deadLetters⟩
    · rw [Flow.recordIf_db]
      have hsave := h.reachable.save a.fault a.now (event.message d.queueName)
      rwa [Service.saveEvent_eq] at hsave
    · refine List.forall_mem_append.mpr
        ⟨hrequeues.1, List.forall_mem_cons.mpr ⟨fun hphase => ?_, hrequeues.2.2⟩⟩
      cases hsettled : Flow.settledAfter n k (Service.saveJournaled ext a
        (event.message d.queueName) (f.service, f.journal)).1 with
      | none =>
        rw [hsettled] at hphase
        cases hphase
      | some settlement =>
        rw [hsettled] at hphase
        cases hphase
        unfold Flow.settledAfter at hsettled
        split at hsettled
        · cases hsettled
        · split at hsettled
          · split at hsettled <;> cases hsettled
          · cases hsettled
    · refine List.forall_mem_append.mpr
        ⟨hrejected.1, List.forall_mem_cons.mpr ⟨fun hphase => ?_, hrejected.2.2⟩⟩
      refine poison_of_reject (n := n) (k := k) (s := (f.service, f.journal)) h.reachable hevent
        hok ?_
      cases hsettled : Flow.settledAfter n k (Service.saveJournaled ext a
        (event.message d.queueName) (f.service, f.journal)).1 with
      | none =>
        rw [hsettled] at hphase
        cases hphase
      | some settlement =>
        rw [hsettled] at hphase
        cases hphase
        rfl
  | @settle _ before after d settlement hheld =>
    have hothers {held : Held} (hother : held ∈ before ++ after) : held ∈ f.held := by
      rw [hheld, List.mem_append, List.mem_cons]
      exact (List.mem_append.mp hother).imp_right .inr
    have hmem : (⟨d, .decided settlement⟩ : Held) ∈ f.held := by
      rw [hheld]
      exact List.mem_append_right _ List.mem_cons_self
    have hrequeues := fun held hin => h.requeues held (hothers hin)
    have hrejected := fun held hin => h.rejected held (hothers hin)
    cases settlement with
    | ack => exact ⟨h.reachable, hrequeues, hrejected, h.deadLetters⟩
    | nack requeue =>
      cases requeue with
      | true => exact ⟨h.reachable, hrequeues, hrejected, h.deadLetters⟩
      | false => exact absurd rfl (h.requeues _ hmem)
    | reject =>
      refine ⟨h.reachable, hrequeues, hrejected, ?_⟩
      exact List.forall_mem_append.mpr
        ⟨h.deadLetters, List.forall_mem_singleton.mpr (h.rejected _ hmem rfl)⟩

/-- As long as only transient errors come from outside, nothing but poison is dead-lettered: a
message that does not parse, or one that is rejected by itself. -/
theorem flow_deadLetters {labels : List FlowAction}
    (h : Run (Flow.Step ext n) FlowAction.Transient labels .initial f) :
    ∀ d ∈ f.deadLetters, Poison ext d := by
  have hboth := h.invariant (I := fun f => Flow.Inv ext f ∧ f.OnlyPoison ext)
    (fun _ _ _ hok hstep hboth => ⟨hboth.1.step hstep, hboth.2.step hboth.1 hok hstep⟩)
    ⟨Flow.inv_initial, .empty, List.forall_mem_nil _, List.forall_mem_nil _,
      List.forall_mem_nil _⟩
  exact hboth.2.deadLetters

end DeadLetters

/-- A message whose time is no date. -/
def undatedDelivery : Delivery :=
  ⟨BOOKING_LIFECYCLE_SAVER_QUEUE, some { Service.createdEvent with time := .text "soon" }⟩

/-- It is retried after a transient error, and then rejected. -/
theorem flow_deadLetters_undated :
    ∃ f : Flow, f.deadLetters = [undatedDelivery] ∧ Poison .sample undatedDelivery := by
  let event : CloudEvent := { Service.createdEvent with time := .text "soon" }
  let a : Attempt := ⟨0, .before 0 .osError⟩
  obtain ⟨f, hrun, hdead⟩ : ∃ f : Flow, Run (Flow.Step .sample 2) FlowAction.Transient
      [.publish, .deliver, .attempt a, .attempt ⟨0, .none⟩, .settle] .initial f ∧
      f.deadLetters = [undatedDelivery] :=
    ⟨_, .cons trivial (.publish _ undatedDelivery) <|
      .cons trivial (@Flow.Step.deliver _ _ _ [] [] undatedDelivery rfl) <|
      .cons (fun e he => by cases he; rfl)
        (@Flow.Step.attempt _ _ _ [] [] undatedDelivery event 1 a rfl) <|
      .cons (fun e he => by cases he)
        (@Flow.Step.attempt _ _ _ [] [] undatedDelivery event 2 ⟨0, .none⟩ rfl) <|
      .cons trivial (@Flow.Step.settle _ _ _ [] [] undatedDelivery .reject rfl) (.nil _), rfl⟩
  refine ⟨f, hdead, flow_deadLetters hrun undatedDelivery ?_⟩
  rw [hdead]
  exact List.mem_singleton_self _

end EventSaver
