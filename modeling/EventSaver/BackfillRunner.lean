import EventSaver.BackfillCycle
import EventSaver.Library.Descent

/-!
# The backfill over its cycles

The runner makes one cycle after the other until it is stopped. A cycle may end early because the
resolver is unavailable, may fail and be rolled back, and may be cancelled; the loop survives
everything but the last. What all cycles together do to the bookings is determined by the state
they start from: the rows between the first and the last state of a run are fixed by two bounds,
and every undisturbed cycle comes closer to the upper one.
-/

namespace EventSaver
open JsonData TableData EffectProgram Descent

/-- The answers that one cycle gets, and the fault of its transaction. -/
structure CycleAttempt where
  resolver : Nat → String → RecipientRole → Except Exc Resolution
  fault : Fault Exc

/-- `run_once` under a fault. -/
def runOnceUnder (ext : Externals) (batchSize : Nat) (c : CycleAttempt) (db : Db) :
    Except Exc BackfillSummary × Db :=
  let ended := transact (cycleExecute ext c.resolver) (fun start reached =>
    (start.1.rollback reached.1, reached.2)) c.fault
    (UserIdBackfillService.runOnceProgram batchSize) (db, 0)
  (ended.1, ended.2.1)

/-- The runner: whether the setting allows the loop, and whether its task exists. -/
structure UserIdBackfillRunner where
  enabled : Bool
  task : Bool
  deriving DecidableEq

/-- What happens to the runner. A cycle is one turn of the loop. A cancellation reaches the loop
in a cycle or between two of them. -/
inductive RunnerStep where
  | start
  | cycle (c : CycleAttempt)
  | stop (cancelled : Option CycleAttempt)

namespace UserIdBackfillRunner

variable (ext : Externals) (batchSize : Nat)

/-- `_run_cycle`: what `run_once` raises is logged. -/
def runCycle (db : Db) (c : CycleAttempt) : Db := (runOnceUnder ext batchSize c db).2

def start (runner : UserIdBackfillRunner) : UserIdBackfillRunner :=
  if runner.enabled then { runner with task := true } else runner

def stop (runner : UserIdBackfillRunner) : UserIdBackfillRunner := { runner with task := false }

/-- The runner after a step. -/
def next (runner : UserIdBackfillRunner) : RunnerStep → UserIdBackfillRunner
  | .start => runner.start
  | .cycle _ => runner
  | .stop _ => runner.stop

/-- The cycles of a step: without a task there is none. -/
def cycle (runner : UserIdBackfillRunner) : RunnerStep → List CycleAttempt
  | .start => []
  | .cycle c => if runner.task then [c] else []
  | .stop cancelled => if runner.task then cancelled.toList else []

def step (state : UserIdBackfillRunner × Db) (s : RunnerStep) : UserIdBackfillRunner × Db :=
  (state.1.next s, (state.1.cycle s).foldl (runCycle ext batchSize) state.2)

def run (steps : List RunnerStep) (runner : UserIdBackfillRunner) (db : Db) :
    UserIdBackfillRunner × Db :=
  steps.foldl (step ext batchSize) (runner, db)

/-- The cycles of a run. -/
def cycles : List RunnerStep → UserIdBackfillRunner → List CycleAttempt
  | [], _ => []
  | s :: rest, runner => runner.cycle s ++ cycles rest (runner.next s)

variable {ext batchSize}

/-- A run changes the database by its cycles only. -/
lemma run_db (steps : List RunnerStep) (runner : UserIdBackfillRunner) (db : Db) :
    (run ext batchSize steps runner db).2 =
      (cycles steps runner).foldl (runCycle ext batchSize) db := by
  induction steps generalizing runner db with
  | nil => rfl
  | cons s rest ih =>
    rw [cycles, List.foldl_append]
    exact ih (runner.next s) ((runner.cycle s).foldl (runCycle ext batchSize) db)

end UserIdBackfillRunner

namespace CycleAttempt

variable (resolve : String → RecipientRole → Option Uuid)

/-- What the resolver answers, it answers by a fixed function. -/
def Answers (c : CycleAttempt) : Prop :=
  ∀ n email role userId, c.resolver n email role = .ok (.answered userId) →
    userId = resolve email role

/-- The resolver answers every request, and the commit takes effect. -/
structure Undisturbed (c : CycleAttempt) : Prop where
  resolver : c.resolver = answering resolve
  fault : c.fault.pending = none

end CycleAttempt

section Cycles

variable {ext : Externals} {resolve : String → RecipientRole → Option Uuid} {batchSize : Nat}
  {c : CycleAttempt}

/-- A call of a cycle moves no sequence. -/
lemma cycleExecute_seqs {resolver : Nat → String → RecipientRole → Except Exc Resolution}
    {call : CycleCall} {s s' : Db × Nat} {r : call.Reply}
    (h : cycleExecute ext resolver call s = .ok (r, s')) :
    s'.1.bookingsSeq = s.1.bookingsSeq ∧ s'.1.notificationsSeq = s.1.notificationsSeq := by
  cases call with
  | selectCandidates batchSize =>
    cases h
    exact ⟨rfl, rfl⟩
  | selectLatestEmail bookingUid role =>
    cases h
    exact ⟨rfl, rfl⟩
  | resolve email role =>
    rw [cycleExecute] at h
    split at h <;> cases h
    exact ⟨rfl, rfl⟩
  | fillSlot id role userId =>
    cases h
    exact ⟨rfl, rfl⟩

/-- The resolver that is unavailable where another one raises. -/
def answersOf (resolver : Nat → String → RecipientRole → Except Exc Resolution) :
    Nat → String → RecipientRole → Resolution :=
  fun n email role =>
    match resolver n email role with
    | .ok resolution => resolution
    | .error _ => .unavailable

lemma cycleExecute_responding {resolver : Nat → String → RecipientRole → Except Exc Resolution}
    {call : CycleCall} {s : Db × Nat} {out : call.Reply × (Db × Nat)}
    (h : cycleExecute ext resolver call s = .ok out) :
    cycleExecute ext (responding (answersOf resolver)) call s = .ok out := by
  cases call with
  | selectCandidates batchSize => exact h
  | selectLatestEmail bookingUid role => exact h
  | fillSlot id role userId => exact h
  | resolve email role =>
    rw [cycleExecute] at h ⊢
    cases hanswer : resolver s.2 email role with
    | error e =>
      rw [hanswer] at h
      cases h
    | ok resolution =>
      rw [hanswer] at h
      rw [responding, answersOf, hanswer]
      exact h

/-- What a cycle has obtained for the slots it has completed is what the function gives. -/
lemma LoopEnd.found_eq {answer : Nat → String → RecipientRole → Resolution} {db db' : Db}
    {done rest : List (Candidate × RecipientRole)}
    {asked : List ((String × RecipientRole) × Resolution)} {tally : Tally} {aborted : Bool}
    (h : LoopEnd ext answer db done rest asked tally aborted db')
    (hanswer : ∀ n email role userId, answer n email role = .answered userId →
      userId = resolve email role) :
    db' = visitAll ext resolve done db := by
  rw [h.committed]
  refine visitAll_congr fun slot hslot => ?_
  unfold foundUserId
  cases hemail : latestEmail ext db.tables.events slot.1.bookingUid slot.2 with
  | none => rfl
  | some email =>
    obtain ⟨userId, hmem⟩ := h.completed slot hslot email hemail
    obtain ⟨i, hi⟩ := List.mem_iff_getElem?.mp hmem
    rw [Option.bind_some, Option.bind_some, obtained_of_mem h.once hmem]
    exact hanswer i email slot.2 userId (h.answers i _ _ hi)

lemma answersOf_answered {resolver : Nat → String → RecipientRole → Except Exc Resolution} {n : Nat}
    {email : String} {role : RecipientRole} {userId : Option Uuid}
    (h : answersOf resolver n email role = .answered userId) :
    resolver n email role = .ok (.answered userId) := by
  rw [answersOf] at h
  cases hresolver : resolver n email role with
  | error e =>
    rw [hresolver] at h
    cases h
  | ok resolution =>
    rw [hresolver] at h
    exact congrArg Except.ok h

/-- A cycle that ends has completed the first slots of its window with the answers it has got. -/
lemma runOnce_loopEnd {resolver : Nat → String → RecipientRole → Except Exc Resolution}
    {db db' : Db} {summary : BackfillSummary}
    (h : runOnce ext resolver batchSize db = (.ok summary, db')) :
    ∃ done rest asked tally aborted, cycleSlots batchSize db = done ++ rest ∧
      LoopEnd ext (answersOf resolver) db done rest asked tally aborted db' := by
  -- The run is one in which the resolver is unavailable where it raised.
  obtain ⟨calls, tally, aborted, after, done, rest, hresponding, _, hslots, _, hend⟩ :=
    runOnce_responding ext (answersOf resolver) batchSize db
  obtain ⟨n, hrun⟩ := run_of_runOnce h
  rw [runOnce_eq, Program.run_of_agree (fun _ _ _ h => cycleExecute_responding h) hrun]
    at hresponding
  have hdb : db' = after := congrArg Prod.snd hresponding
  exact ⟨done, rest, requests calls, tally, aborted, hslots, hdb ▸ hend⟩

variable (ext batchSize) in
/-- A cycle that raises changes nothing. -/
lemma runCycle_cases (c : CycleAttempt) (db : Db) :
    UserIdBackfillRunner.runCycle ext batchSize db c = db ∨
      ∃ summary, runOnce ext c.resolver batchSize db =
        (.ok summary, UserIdBackfillRunner.runCycle ext batchSize db c) := by
  let rollback := fun start reached : Db × Nat => (start.1.rollback reached.1, reached.2)
  let program := UserIdBackfillService.runOnceProgram batchSize
  have hcycle : UserIdBackfillRunner.runCycle ext batchSize db c =
      (transact (cycleExecute ext c.resolver) rollback c.fault program (db, 0)).2.1 := rfl
  cases hcommits : commits (cycleExecute ext c.resolver) c.fault program (db, 0) with
  | false =>
    obtain ⟨e, hend⟩ := transact_of_not_commits _ rollback hcommits
    have hseqs := runFaulty_rel (cycleExecute ext c.resolver)
      (R := fun s s' => s'.1.bookingsSeq = s.1.bookingsSeq ∧
        s'.1.notificationsSeq = s.1.notificationsSeq) (fun _ => ⟨rfl, rfl⟩)
      (fun h h' => ⟨h'.1.trans h.1, h'.2.trans h.2⟩)
      (fun call s r s' h => cycleExecute_seqs h) c.fault.pending program (db, 0)
    refine .inl ?_
    rw [hcycle, hend]
    change db.rollback _ = db
    rw [Db.rollback, hseqs.1, hseqs.2]
  | true =>
    obtain ⟨hstate, hok⟩ := transact_of_commits _ rollback hcommits
    rw [transact_none] at hstate hok
    rcases hrun : program.run (cycleExecute ext c.resolver) (db, 0) with ⟨e | summary, s⟩
    · rw [hrun] at hok
      cases hok
    · rw [hrun] at hstate
      refine .inr ⟨summary, ?_⟩
      rw [runOnce_eq, hrun, hcycle, hstate]

variable (ext batchSize) in
/-- What a cycle leaves is what visits to the first slots of its window leave. -/
lemma runCycle_eq_visitAll (hanswers : c.Answers resolve) (db : Db) :
    ∃ done, done <+: cycleSlots batchSize db ∧
      UserIdBackfillRunner.runCycle ext batchSize db c = visitAll ext resolve done db := by
  rcases runCycle_cases ext batchSize c db with hsame | ⟨summary, hrun⟩
  · refine ⟨[], List.nil_prefix, ?_⟩
    rw [hsame]
    simp [visitAll]
  · obtain ⟨done, rest, _, _, _, hslots, hend⟩ := runOnce_loopEnd hrun
    exact ⟨done, ⟨rest, hslots.symm⟩, hend.found_eq fun n email role userId hanswer =>
      hanswers n email role userId (answersOf_answered hanswer)⟩

/-- An undisturbed cycle has completed its whole window. -/
lemma runCycle_undisturbed (h : c.Undisturbed resolve) (db : Db) :
    UserIdBackfillRunner.runCycle ext batchSize db c =
      visitAll ext resolve (cycleSlots batchSize db) db := by
  let rollback := fun start reached : Db × Nat => (start.1.rollback reached.1, reached.2)
  obtain ⟨summary, hrun⟩ := runOnce_answering ext resolve batchSize db
  have hcommits : commits (cycleExecute ext c.resolver) c.fault
      (UserIdBackfillService.runOnceProgram batchSize) (db, 0) = true := by
    obtain ⟨n, hend⟩ := run_of_runOnce hrun
    rw [commits, h.fault, runFaulty_none, h.resolver, hend]
    rfl
  have hstate := (transact_of_commits _ rollback hcommits).1
  change (transact _ rollback _ _ _).2.1 = _
  rw [hstate, h.resolver]
  change (runOnce ext (answering resolve) batchSize db).2 = _
  rw [hrun]

end Cycles

end EventSaver
