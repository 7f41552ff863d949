import EventSaver.Consumer

/-!
# Settlement of a message

The retry loop stops at the first outcome of a save attempt that is not a transient error, or when
the attempts are exhausted. The calls of one consumption are counted beside its state.
-/

namespace EventSaver

/-- The attempts to save and the outcomes recorded, in order. -/
structure CallLog where
  saves : List Nat
  recorded : List (String × String)

/-- An outcome that is retried. -/
def IsTransientOutcome (outcome : Except Exc Unit) : Prop :=
  ∃ e, outcome = .error e ∧ isTransient e = true

/-- The settlement that an outcome which is not retried leads to. -/
def Settlement.ofOutcome : Except Exc Unit → Settlement
  | .ok _ => .ack
  | .error _ => .reject

/-- A message is settled once: by the first outcome that is not a transient error if it comes
within the `n` attempts, and by a requeueing otherwise. -/
structure SettledOnce (n : Nat) (outcome : Nat → Except Exc Unit) (eventType : String)
    (settled : Settlement) (log : CallLog) : Prop where
  decided : ∀ k < n, (∀ i < k, IsTransientOutcome (outcome i)) →
    ¬IsTransientOutcome (outcome k) →
      settled = .ofOutcome (outcome k) ∧ log.saves = List.range' 1 (k + 1)
  exhausted : (∀ i < n, IsTransientOutcome (outcome i)) →
    settled = .nack true ∧ log.saves = List.range' 1 n
  recorded : log.recorded = [(eventType, settled.outcome)]
  rejected : settled = .reject →
    ∃ e, outcome (log.saves.length - 1) = .error e ∧ isTransient e = false
  retried : ∀ i, i + 1 < log.saves.length → IsTransientOutcome (outcome i)

namespace RabbitEventConsumerRunner

section Log

variable {σ : Type}

/-- `save_event`, with its calls counted. -/
def loggedSave (save : CloudEvent → Nat → σ → Except Exc Unit × σ) (event : CloudEvent)
    (attempt : Nat) (s : σ × CallLog) : Except Exc Unit × (σ × CallLog) :=
  ((save event attempt s.1).1,
    ((save event attempt s.1).2, { s.2 with saves := s.2.saves ++ [attempt] }))

/-- `record_message`, with its calls counted. -/
def loggedRecord (record : String → String → σ → σ) (eventType outcome : String)
    (s : σ × CallLog) : σ × CallLog :=
  (record eventType outcome s.1, { s.2 with recorded := s.2.recorded ++ [(eventType, outcome)] })

variable (save : Nat → σ → Except Exc Unit × σ) (s : σ)

/-- The state after a number of attempts. -/
def afterAttempts : Nat → σ
  | 0 => s
  | k + 1 => (save (k + 1) (afterAttempts k)).2

/-- The outcome of the attempt that follows a number of attempts. -/
def outcomeAfter (k : Nat) : Except Exc Unit := (save (k + 1) (afterAttempts save s k)).1

end Log

section Loop

variable {σ : Type} {save : Nat → σ → Except Exc Unit × σ} {s : σ}

/-- One turn of the loop. -/
lemma saveWithRetry_succ (attempts k : Nat) :
    saveWithRetry save (attempts + 1) (k + 1) (afterAttempts save s k) =
      match outcomeAfter save s k with
      | .ok _ => (.ack, afterAttempts save s (k + 1))
      | .error e =>
        if isTransient e then
          saveWithRetry save attempts (k + 2) (afterAttempts save s (k + 1))
        else (.reject, afterAttempts save s (k + 1)) := by
  rw [saveWithRetry, outcomeAfter, afterAttempts]
  rcases save (k + 1) (afterAttempts save s k) with ⟨e | _, t⟩ <;> rfl

/-- Transient errors take the loop from attempt to attempt. -/
lemma saveWithRetry_transient {j : Nat} (k attempts : Nat)
    (h : ∀ i, k ≤ i → i < k + j → IsTransientOutcome (outcomeAfter save s i)) :
    saveWithRetry save (attempts + j) (k + 1) (afterAttempts save s k) =
      saveWithRetry save attempts (k + j + 1) (afterAttempts save s (k + j)) := by
  induction j generalizing k with
  | zero => rfl
  | succ j ih =>
    obtain ⟨e, he, htransient⟩ := h k (le_refl k) (by omega)
    have hnext := ih (k + 1) fun i hi hlt => h i (by omega) (by omega)
    rw [show k + 1 + j = k + (j + 1) by omega] at hnext
    rw [← hnext, ← Nat.add_assoc, saveWithRetry_succ, he]
    dsimp only
    rw [if_pos htransient]

/-- The loop stops after the first outcome that is not retried. -/
lemma saveWithRetry_stops {n k : Nat} (hk : k < n)
    (hbefore : ∀ i < k, IsTransientOutcome (outcomeAfter save s i))
    (hstop : ¬IsTransientOutcome (outcomeAfter save s k)) :
    saveWithRetry save n 1 s =
      (.ofOutcome (outcomeAfter save s k), afterAttempts save s (k + 1)) := by
  have hreach := saveWithRetry_transient (s := s) 0 (n - k) fun i _ hi =>
    hbefore i (by rwa [Nat.zero_add] at hi)
  simp only [Nat.zero_add, Nat.sub_add_cancel hk.le] at hreach
  rw [show n - k = n - k - 1 + 1 by omega, saveWithRetry_succ] at hreach
  refine hreach.trans ?_
  cases houtcome : outcomeAfter save s k with
  | ok _ => rfl
  | error e =>
    have hpermanent : ¬isTransient e = true := fun htransient => hstop ⟨e, houtcome, htransient⟩
    dsimp only
    rw [if_neg hpermanent]
    rfl

/-- Transient errors exhaust the attempts. -/
lemma saveWithRetry_exhausts {n : Nat}
    (h : ∀ i < n, IsTransientOutcome (outcomeAfter save s i)) :
    saveWithRetry save n 1 s = (.nack true, afterAttempts save s n) := by
  have hreach := saveWithRetry_transient (s := s) 0 0 fun i _ hi =>
    h i (by rwa [Nat.zero_add] at hi)
  simp only [Nat.zero_add] at hreach
  exact hreach

/-- Either some outcome within the attempts is not retried, or all are. -/
lemma first_permanent (outcome : Nat → Except Exc Unit) (n : Nat) :
    (∃ k < n, (∀ i < k, IsTransientOutcome (outcome i)) ∧ ¬IsTransientOutcome (outcome k)) ∨
      ∀ i < n, IsTransientOutcome (outcome i) := by
  induction n with
  | zero => exact .inr fun i hi => absurd hi (Nat.not_lt_zero i)
  | succ n ih =>
    rcases ih with ⟨k, hk, hfirst⟩ | hall
    · exact .inl ⟨k, by omega, hfirst⟩
    · by_cases hlast : IsTransientOutcome (outcome n)
      · refine .inr fun i hi => ?_
        rcases Nat.lt_succ_iff_lt_or_eq.mp hi with hlt | rfl
        · exact hall i hlt
        · exact hlast
      · exact .inl ⟨n, by omega, hall, hlast⟩

end Loop

section Consumption

variable {σ : Type} {save : CloudEvent → Nat → σ → Except Exc Unit × σ}
  {record : String → String → σ → σ} {event : CloudEvent} {s : σ}

/-- The log counts the attempts. -/
lemma afterAttempts_logged (k : Nat) :
    afterAttempts (loggedSave save event) (s, ⟨[], []⟩) k =
      (afterAttempts (save event) s k, ⟨List.range' 1 k, []⟩) := by
  induction k with
  | zero => rfl
  | succ k ih =>
    rw [afterAttempts, ih, loggedSave, List.range'_1_concat, Nat.add_comm 1 k]
    rfl

lemma outcomeAfter_logged (k : Nat) :
    outcomeAfter (loggedSave save event) (s, ⟨[], []⟩) k = outcomeAfter (save event) s k := by
  rw [outcomeAfter, afterAttempts_logged]
  rfl

/-- The consumption of a message that parses, by what the retry loop returns. -/
lemma consumeMessage_logged {queueName : String} {n k : Nat} {settled : Settlement}
    (h : saveWithRetry (loggedSave save event) n 1 (s, ⟨[], []⟩) =
      (settled, afterAttempts (loggedSave save event) (s, ⟨[], []⟩) k)) :
    consumeMessage (loggedSave save) (loggedRecord record) n ⟨queueName, some event⟩
        (s, ⟨[], []⟩) =
      (settled, record event.type settled.outcome (afterAttempts (save event) s k),
        ⟨List.range' 1 k, [(event.type, settled.outcome)]⟩) := by
  change ((saveWithRetry (loggedSave save event) n 1 (s, ⟨[], []⟩)).1,
    loggedRecord record event.type (saveWithRetry (loggedSave save event) n 1 (s, ⟨[], []⟩)).1.outcome
      (saveWithRetry (loggedSave save event) n 1 (s, ⟨[], []⟩)).2) = _
  rw [h, afterAttempts_logged]
  rfl

variable (save record) in
/-- Whatever the successive attempts to save a message give, it is settled once, and one outcome
is recorded. -/
theorem consumeMessage_settledOnce (n : Nat) (queueName : String) (event : CloudEvent) (s : σ) :
    SettledOnce n (outcomeAfter (save event) s) event.type
      (consumeMessage (loggedSave save) (loggedRecord record) n ⟨queueName, some event⟩
        (s, ⟨[], []⟩)).1
      (consumeMessage (loggedSave save) (loggedRecord record) n ⟨queueName, some event⟩
        (s, ⟨[], []⟩)).2.2 := by
  rcases first_permanent (outcomeAfter (save event) s) n with ⟨k, hk, hbefore, hstop⟩ | hall
  · have hloop := @saveWithRetry_stops _ (loggedSave save event) (s, ⟨[], []⟩) n k hk
    simp only [outcomeAfter_logged] at hloop
    rw [consumeMessage_logged (hloop hbefore hstop)]
    have hsaves : (List.range' 1 (k + 1)).length = k + 1 := List.length_range'
    refine ⟨fun k' _ hbefore' hstop' => ?_, fun hall => absurd (hall k hk) hstop, rfl,
      fun hrejected => ?_, fun i hi => hbefore i ?_⟩
    · rcases Nat.lt_trichotomy k k' with hlt | rfl | hlt
      · exact absurd (hbefore' k hlt) hstop
      · exact ⟨rfl, rfl⟩
      · exact absurd (hbefore k' hlt) hstop'
    · dsimp only at hrejected ⊢
      rw [hsaves, Nat.add_sub_cancel]
      cases houtcome : outcomeAfter (save event) s k with
      | ok _ =>
        rw [houtcome] at hrejected
        cases hrejected
      | error e =>
        refine ⟨e, rfl, ?_⟩
        by_contra htransient
        exact hstop ⟨e, houtcome, (Bool.not_eq_false _).mp htransient⟩
    · dsimp only at hi
      omega
  · have hloop := @saveWithRetry_exhausts _ (loggedSave save event) (s, ⟨[], []⟩) n
    simp only [outcomeAfter_logged] at hloop
    rw [consumeMessage_logged (hloop hall)]
    have hsaves : (List.range' 1 n).length = n := List.length_range'
    refine ⟨fun k hk _ hstop => absurd (hall k hk) hstop, fun _ => ⟨rfl, rfl⟩, rfl,
      fun hrejected => (by cases hrejected), fun i hi => hall i ?_⟩
    dsimp only at hi
    omega

end Consumption

end RabbitEventConsumerRunner

end EventSaver
