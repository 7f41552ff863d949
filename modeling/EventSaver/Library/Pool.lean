import EventSaver.Library.Program
import Mathlib.Data.Finset.Insert
import Mathlib.Data.Fintype.EquivFin
import Mathlib.Logic.Function.Basic
import Mathlib.Logic.Relation

/-!
# Pools of transactions

Programs that run as concurrent transactions over one committed state. An open transaction works
on a view of that state with its own writes on top, and publishes the view when it commits. The
calls of the transactions interleave in any order, and a call may have to wait for another open
transaction.
-/

namespace EffectProgram

variable {S : Signature} {ε α σ τ ι : Type}

namespace Program

/-- The answered calls that lead from one program to another. -/
inductive Path : Program S ε α → List (Σ c, S.Reply c) → Program S ε α → Prop
  | nil (p : Program S ε α) : Path p [] p
  | cons {c : S.Call} {next : S.Reply c → Program S ε α} {r : S.Reply c}
      {tr : List (Σ c, S.Reply c)} {q : Program S ε α} (h : Path (next r) tr q) :
      Path (.call c next) (⟨c, r⟩ :: tr) q

variable {p q : Program S ε α} {tr : List (Σ c, S.Reply c)}

lemma Path.snoc {c : S.Call} {next : S.Reply c → Program S ε α} (h : Path p tr q)
    (hq : q = .call c next) (r : S.Reply c) : Path p (tr ++ [⟨c, r⟩]) (next r) := by
  induction h with
  | nil p =>
    subst hq
    exact .cons (.nil _)
  | cons _ ih => exact .cons (ih hq)

lemma Path.of_pure {a : α} (h : Path (.pure a : Program S ε α) tr q) : tr = [] ∧ q = .pure a := by
  cases h
  exact ⟨rfl, rfl⟩

lemma Path.of_throw {e : ε} (h : Path (.throw e : Program S ε α) tr q) :
    tr = [] ∧ q = .throw e := by
  cases h
  exact ⟨rfl, rfl⟩

lemma Path.of_call {c : S.Call} {next : S.Reply c → Program S ε α}
    (h : Path (.call c next) tr q) :
    (tr = [] ∧ q = .call c next) ∨ ∃ r tr', tr = ⟨c, r⟩ :: tr' ∧ Path (next r) tr' q := by
  cases h with
  | nil => exact .inl ⟨rfl, rfl⟩
  | cons h => exact .inr ⟨_, _, rfl, h⟩

lemma Path.every {P : S.Call → Prop} (h : Path p tr q) (hp : p.Every P) :
    (∀ e ∈ tr, P e.1) ∧ q.Every P := by
  induction h with
  | nil p => exact ⟨List.forall_mem_nil _, hp⟩
  | cons _ ih =>
    obtain ⟨htail, hq⟩ := ih (hp.2 _)
    exact ⟨List.forall_mem_cons.mpr ⟨hp.1, htail⟩, hq⟩

/-- What is ensured of a program, knowing the calls it has got answered, is ensured of what is left
of it. -/
lemma Path.ensures {P : List (Σ c, S.Reply c) → S.Call → Prop}
    {Q : List (Σ c, S.Reply c) → α → Prop} {known : List (Σ c, S.Reply c)} (h : Path p tr q)
    (hp : p.Ensures (fun known c r known' => known' = known ++ [⟨c, r⟩]) P Q known) :
    q.Ensures (fun known c r known' => known' = known ++ [⟨c, r⟩]) P Q (known ++ tr) := by
  induction h generalizing known with
  | nil p =>
    rw [List.append_nil]
    exact hp
  | @cons c next r tr q _ ih =>
    have hq := ih (hp.2 r _ rfl)
    rwa [List.append_assoc] at hq

variable {H : Handler S ε σ} {s t : σ}

/-- The calls of a path as a handler answers them, from one state to another. -/
inductive Replays (H : Handler S ε σ) :
    Program S ε α → σ → List (Σ c, S.Reply c) → Program S ε α → σ → Prop
  | nil (p : Program S ε α) (s : σ) : Replays H p s [] p s
  | cons {c : S.Call} {next : S.Reply c → Program S ε α} {r : S.Reply c} {s s' t : σ}
      {tr : List (Σ c, S.Reply c)} {q : Program S ε α} (answer : H c s = .ok (r, s'))
      (h : Replays H (next r) s' tr q t) : Replays H (.call c next) s (⟨c, r⟩ :: tr) q t

lemma Replays.snoc {c : S.Call} {next : S.Reply c → Program S ε α} {r : S.Reply c} {t' : σ}
    (h : Replays H p s tr q t) (hq : q = .call c next) (answer : H c t = .ok (r, t')) :
    Replays H p s (tr ++ [⟨c, r⟩]) (next r) t' := by
  induction h with
  | nil p s =>
    subst hq
    exact .cons answer (.nil _ _)
  | cons hfirst _ ih => exact .cons hfirst (ih hq answer)

lemma Replays.run_eq (h : Replays H p s tr q t) : p.run H s = q.run H t := by
  induction h with
  | nil p s => rfl
  | cons hfirst _ ih => rw [run_call_ok _ hfirst, ih]

end Program

/-- A discipline that keeps what open transactions have written apart from the committed
state. -/
structure Isolation (S : Signature) (ε σ τ : Type) where
  handler : Handler S ε σ
  /-- What a transaction has written when it begins. -/
  start : τ
  /-- The state as a transaction sees it, and as its commit leaves it. -/
  view : τ → σ → σ
  /-- What a transaction has written after a call that took its view from one state to another. -/
  write : τ → S.Call → σ → σ → τ
  /-- The committed state after a call that left the view in a given state: what no rollback
  takes back. -/
  outside : σ → σ → σ
  /-- Whether a call on a view waits for a transaction that has written something. -/
  Waits : S.Call → σ → τ → Prop
  view_start : ∀ s, view start s = s
  /-- A transaction sees its own writes. -/
  view_write : ∀ {own s c r s'}, handler c (view own s) = .ok (r, s') →
    view (write own c (view own s) s') (outside s s') = s'

inductive TxStatus where
  | running
  | committed
  | aborted
  deriving DecidableEq

/-- A transaction: the calls it has got answered, the program it has left, and what it has
written. -/
structure Tx (S : Signature) (ε τ : Type) where
  status : TxStatus
  trace : List (Σ c, S.Reply c)
  rest : Program S ε Unit
  own : τ

/-- A transaction and the committed state after some more calls, none of which waits. -/
def Isolation.advance (I : Isolation S ε σ τ) : Nat → Tx S ε τ → σ → Tx S ε τ × σ
  | 0, t, s => (t, s)
  | n + 1, t, s =>
    match t.rest with
    | .call c next =>
      match I.handler c (I.view t.own s) with
      | .ok (r, s') =>
        I.advance n ⟨t.status, t.trace ++ [⟨c, r⟩], next r, I.write t.own c (I.view t.own s) s'⟩
          (I.outside s s')
      | .error _ => (t, s)
    | _ => (t, s)

/-- None of the next calls of a transaction waits for one that has written `other`. -/
def Isolation.Passes (I : Isolation S ε σ τ) (other : τ) : Nat → Tx S ε τ → σ → Prop
  | 0, _, _ => True
  | n + 1, t, s =>
    match t.rest with
    | .call c next =>
      ¬ I.Waits c (I.view t.own s) other ∧
        match I.handler c (I.view t.own s) with
        | .ok (r, s') =>
          I.Passes other n ⟨t.status, t.trace ++ [⟨c, r⟩], next r,
            I.write t.own c (I.view t.own s) s'⟩ (I.outside s s')
        | .error _ => True
    | _ => True

lemma Isolation.passes_of_every (I : Isolation S ε σ τ) {other : τ} {P : S.Call → Prop}
    (h : ∀ c s, P c → ¬ I.Waits c s other) (n : Nat) {t : Tx S ε τ} (hevery : t.rest.Every P)
    (s : σ) : I.Passes other n t s := by
  induction n generalizing t s with
  | zero => trivial
  | succ n ih =>
    rw [Isolation.Passes]
    cases hrest : t.rest with
    | pure a => trivial
    | throw e => trivial
    | call c next =>
      rw [hrest] at hevery
      refine ⟨h c _ hevery.1, ?_⟩
      cases I.handler c (I.view t.own s) with
      | error e => trivial
      | ok out => exact ih (hevery.2 out.1) _

/-- Nobody waits for what has been written. -/
lemma Isolation.passes (I : Isolation S ε σ τ) {other : τ} (h : ∀ c s, ¬ I.Waits c s other)
    (n : Nat) (t : Tx S ε τ) (s : σ) : I.Passes other n t s :=
  I.passes_of_every (P := fun _ => True) (fun c s _ => h c s) n
    (Program.every_of_forall (fun _ => trivial) _) s

structure Pool (S : Signature) (ε σ τ ι : Type) where
  shared : σ
  tx : ι → Tx S ε τ

inductive Action (S : Signature) (ι : Type) where
  | call (i : ι) (c : S.Call)
  | commit (i : ι)
  | abort (i : ι)

/-- The transaction that takes the step. -/
def Action.tx : Action S ι → ι
  | .call i _ => i
  | .commit i => i
  | .abort i => i

namespace Pool

def Running (p : Pool S ε σ τ ι) (i : ι) : Prop := (p.tx i).status = .running

def Committed (p : Pool S ε σ τ ι) (i : ι) : Prop := (p.tx i).status = .committed

def set [DecidableEq ι] (p : Pool S ε σ τ ι) (i : ι) (shared : σ) (t : Tx S ε τ) :
    Pool S ε σ τ ι where
  shared := shared
  tx := Function.update p.tx i t

variable (I : Isolation S ε σ τ)

def start (s : σ) (program : ι → Program S ε Unit) : Pool S ε σ τ ι where
  shared := s
  tx := fun i => ⟨.running, [], program i, I.start⟩

def view (p : Pool S ε σ τ ι) (i : ι) : σ := I.view (p.tx i).own p.shared

/-- The next call of a transaction waits for another one. -/
def WaitsFor (p : Pool S ε σ τ ι) (i j : ι) : Prop :=
  p.Running i ∧ p.Running j ∧ j ≠ i ∧
    ∃ c next, (p.tx i).rest = .call c next ∧ I.Waits c (p.view I i) (p.tx j).own

variable [DecidableEq ι]

/-- One step: a transaction gets a call answered, commits, or is rolled back, which may happen at
any time. -/
inductive Step (p : Pool S ε σ τ ι) : Action S ι → Pool S ε σ τ ι → Prop
  | call {i : ι} {c : S.Call} {next : S.Reply c → Program S ε Unit} {r : S.Reply c} {s : σ}
      (running : p.Running i) (rest : (p.tx i).rest = .call c next)
      (free : ∀ j, j ≠ i → p.Running j → ¬ I.Waits c (p.view I i) (p.tx j).own)
      (answer : I.handler c (p.view I i) = .ok (r, s)) :
      Step p (.call i c) (p.set i (I.outside p.shared s)
        ⟨.running, (p.tx i).trace ++ [⟨c, r⟩], next r, I.write (p.tx i).own c (p.view I i) s⟩)
  | commit {i : ι} (running : p.Running i) (rest : (p.tx i).rest = .pure ()) :
      Step p (.commit i) (p.set i (p.view I i) { p.tx i with status := .committed })
  | abort {i : ι} (running : p.Running i) :
      Step p (.abort i) (p.set i p.shared { p.tx i with status := .aborted })

/-- Some steps, each of which `ok` admits in the pool it is taken in. -/
def Run (ok : Pool S ε σ τ ι → Action S ι → Prop) : Pool S ε σ τ ι → Pool S ε σ τ ι → Prop :=
  Relation.ReflTransGen fun p q => ∃ a, ok p a ∧ p.Step I a q

/-- Any steps. -/
abbrev Steps : Pool S ε σ τ ι → Pool S ε σ τ ι → Prop := Run I fun _ _ => True

variable {I} {ok : Pool S ε σ τ ι → Action S ι → Prop} {p q : Pool S ε σ τ ι}

/-- What every step preserves holds along a run. -/
theorem Run.invariant {P : Pool S ε σ τ ι → Prop} (h : Run I ok p q) (hp : P p)
    (hstep : ∀ {p a q}, P p → ok p a → p.Step I a q → P q) : P q := by
  induction h with
  | refl => exact hp
  | tail _ hlast ih =>
    obtain ⟨a, hok, hlast⟩ := hlast
    exact hstep ih hok hlast

section Frame

variable {i j : ι} {s : σ} {t : Tx S ε τ}

@[simp] lemma set_shared : (p.set i s t).shared = s := rfl

@[simp] lemma set_tx_self : (p.set i s t).tx i = t := by
  simp only [set, Function.update_self]

lemma set_tx_of_ne (h : j ≠ i) : (p.set i s t).tx j = p.tx j := by
  simp only [set, Function.update_of_ne h]

/-- A step leaves every other transaction as it is. -/
lemma Step.tx_of_ne {a : Action S ι} (h : p.Step I a q) (hj : j ≠ a.tx) : q.tx j = p.tx j := by
  cases h <;> exact set_tx_of_ne hj

lemma Step.running {a : Action S ι} (h : p.Step I a q) : p.Running a.tx := by
  cases h <;> assumption

/-- A call takes the view of its transaction where the handler says. -/
lemma Step.view_call {c : S.Call} (h : p.Step I (.call i c) q) :
    ∃ r, I.handler c (p.view I i) = .ok (r, q.view I i) := by
  cases h with
  | @call _ _ next r s running rest free answer =>
    refine ⟨r, ?_⟩
    rw [answer, view, set_tx_self, set_shared]
    exact congrArg (fun s => Except.ok (r, s)) (I.view_write answer).symm

end Frame

/-- What holds of every transaction still does when it holds of the one that took the step. -/
lemma Step.forall_tx {P : ι → Tx S ε τ → Prop} {a : Action S ι} (h : p.Step I a q)
    (hp : ∀ j, P j (p.tx j)) (hq : P a.tx (q.tx a.tx)) (j : ι) : P j (q.tx j) := by
  by_cases hj : j = a.tx
  · rw [hj]
    exact hq
  · rw [h.tx_of_ne hj]
    exact hp j

/-- The transaction runs the given program. -/
structure Follows (I : Isolation S ε σ τ) (program : Program S ε Unit) (t : Tx S ε τ) : Prop where
  path : program.Path t.trace t.rest
  fresh : t.trace = [] → t.own = I.start
  committed : t.status = .committed → t.rest = .pure ()

lemma Run.follows {s : σ} {program : ι → Program S ε Unit} (h : Run I ok (start I s program) p) :
    ∀ i, Follows I (program i) (p.tx i) := by
  have hstart (i : ι) : Follows I (program i) ((start I s program).tx i) :=
    ⟨.nil (program i), fun _ => rfl, nofun⟩
  refine h.invariant (P := fun p => ∀ i, Follows I (program i) (p.tx i)) hstart ?_
  intro p a q hp _ hstep
  refine hstep.forall_tx (P := fun i => Follows I (program i)) hp ?_
  cases hstep with
  | @call i c next r s running rest free answer =>
    rw [Action.tx, set_tx_self]
    exact ⟨(hp i).path.snoc rest r, fun hfresh => absurd hfresh (List.concat_ne_nil _ _), nofun⟩
  | @commit i running rest =>
    rw [Action.tx, set_tx_self]
    exact ⟨(hp i).path, (hp i).fresh, fun _ => rest⟩
  | @abort i running =>
    rw [Action.tx, set_tx_self]
    exact ⟨(hp i).path, (hp i).fresh, nofun⟩

section Holders

variable {i : ι} {H : Tx S ε τ → Prop}

/-- No two open transactions hold something. -/
def HeldOnce (p : Pool S ε σ τ ι) (H : Tx S ε τ → Prop) : Prop :=
  ∀ j k, p.Running j → p.Running k → H (p.tx j) → H (p.tx k) → j = k

omit [DecidableEq ι] in
/-- One transaction moves. If it is open after that, it holds nothing that another one does. -/
lemma HeldOnce.move (h : p.HeldOnce H) (hother : ∀ j, j ≠ i → q.tx j = p.tx j)
    (halone : q.Running i → H (q.tx i) → ∀ j, j ≠ i → p.Running j → ¬ H (p.tx j)) :
    q.HeldOnce H := by
  have hsame {j : ι} (hji : j ≠ i) (hj : q.Running j) (hjs : H (q.tx j)) :
      p.Running j ∧ H (p.tx j) := by
    rw [Running, hother j hji] at hj
    exact ⟨hj, hother j hji ▸ hjs⟩
  intro j k hj hk hjs hks
  by_cases hji : j = i
  · by_cases hki : k = i
    · rw [hji, hki]
    · obtain ⟨hkp, hkp'⟩ := hsame hki hk hks
      exact absurd hkp' (halone (hji ▸ hj) (hji ▸ hjs) k hki hkp)
  · obtain ⟨hjp, hjp'⟩ := hsame hji hj hjs
    by_cases hki : k = i
    · exact absurd hjp' (halone (hki ▸ hk) (hki ▸ hks) j hji hjp)
    · obtain ⟨hkp, hkp'⟩ := hsame hki hk hks
      exact h j k hjp hkp hjp' hkp'

end Holders

section Alone

lemma Run.trans {r : Pool S ε σ τ ι} (h : Run I ok p q) (h' : Run I ok q r) : Run I ok p r :=
  Relation.ReflTransGen.trans h h'

lemma Step.run {a : Action S ι} (h : p.Step I a q) (hok : ok p a) : Run I ok p q :=
  Relation.ReflTransGen.single ⟨a, hok, h⟩

lemma Step.steps {a : Action S ι} (h : p.Step I a q) : Steps I p q := h.run trivial

/-- All open transactions but one can be rolled back. -/
theorem exists_alone [Finite ι] (p : Pool S ε σ τ ι) (i : ι) :
    ∃ q, Steps I p q ∧ q.shared = p.shared ∧ q.tx i = p.tx i ∧ ∀ j, j ≠ i → ¬ q.Running j := by
  have habort (js : Finset ι) : ∃ q, Steps I p q ∧ q.shared = p.shared ∧ q.tx i = p.tx i ∧
      ∀ j ∈ js, j ≠ i → ¬ q.Running j := by
    induction js using Finset.induction_on with
    | empty => exact ⟨p, .refl, rfl, rfl, fun j hj => nomatch hj⟩
    | insert k js _ ih =>
      obtain ⟨q, hsteps, hshared, htx, hrest⟩ := ih
      by_cases hk : k ≠ i ∧ q.Running k
      · have hstep : q.Step I (.abort k) _ := .abort hk.2
        refine ⟨_, hsteps.trans hstep.steps, hshared, ?_, fun j hj hji => ?_⟩
        · rw [set_tx_of_ne hk.1.symm, htx]
        · by_cases hjk : j = k
          · rw [hjk, Running, set_tx_self]
            nofun
          · rw [Running, set_tx_of_ne hjk]
            exact hrest j (Finset.mem_of_mem_insert_of_ne hj hjk) hji
      · refine ⟨q, hsteps, hshared, htx, fun j hj hji => ?_⟩
        rcases Finset.mem_insert.mp hj with rfl | hj
        · exact fun hrunning => hk ⟨hji, hrunning⟩
        · exact hrest j hj hji
  have := Fintype.ofFinite ι
  obtain ⟨q, hsteps, hshared, htx, hrest⟩ := habort Finset.univ
  exact ⟨q, hsteps, hshared, htx, fun j => hrest j (Finset.mem_univ j)⟩

/-- A transaction that nobody else is open beside can run as its program does alone, and commits
unless that raises. -/
theorem exists_run_alone {i : ι} (hrunning : p.Running i)
    (halone : ∀ j, j ≠ i → ¬ p.Running j) :
    ∃ q, Steps I p q ∧
      (q.tx i).trace = (p.tx i).trace ++ (p.tx i).rest.trace I.handler (p.view I i) ∧
      (((p.tx i).rest.run I.handler (p.view I i)).1 = .ok () →
        q.Committed i ∧ q.shared = ((p.tx i).rest.run I.handler (p.view I i)).2) := by
  generalize hrest : (p.tx i).rest = rest
  induction rest generalizing p with
  | pure a =>
    have hstep : p.Step I (.commit i) _ := .commit hrunning hrest
    refine ⟨_, hstep.steps, ?_, fun _ => ⟨?_, rfl⟩⟩
    · rw [set_tx_self, Program.trace, List.append_nil]
    · rw [Committed, set_tx_self]
  | throw e =>
    exact ⟨p, .refl, (List.append_nil _).symm, fun hok => by cases hok⟩
  | call c next ih =>
    cases hcall : I.handler c (p.view I i) with
    | error e =>
      rw [Program.run_call_error _ hcall, Program.trace, hcall]
      exact ⟨p, .refl, (List.append_nil _).symm, fun hok => by cases hok⟩
    | ok out =>
      obtain ⟨r, s⟩ := out
      have hstep : p.Step I (.call i c) _ :=
        .call hrunning hrest (fun j hj hjr => absurd hjr (halone j hj)) hcall
      rw [Program.run_call_ok _ hcall, Program.trace, hcall]
      generalize hq : p.set i (I.outside p.shared s) ⟨.running, (p.tx i).trace ++ [⟨c, r⟩], next r,
        I.write (p.tx i).own c (p.view I i) s⟩ = q at hstep
      have htx : q.tx i = ⟨.running, (p.tx i).trace ++ [⟨c, r⟩], next r,
          I.write (p.tx i).own c (p.view I i) s⟩ := by rw [← hq, set_tx_self]
      have hview : q.view I i = s := by
        rw [view, htx, ← hq, set_shared]
        exact I.view_write hcall
      have halone' : ∀ j, j ≠ i → ¬ q.Running j := by
        intro j hj
        rw [Running, hstep.tx_of_ne hj]
        exact halone j hj
      obtain ⟨q', hsteps, htrace, hcommit⟩ := ih r (p := q) (by rw [Running, htx]) halone'
        (by rw [htx])
      rw [hview] at htrace hcommit
      refine ⟨q', hstep.steps.trans hsteps, ?_, hcommit⟩
      rw [htrace, htx, List.append_assoc]
      rfl

/-- A transaction can get some calls answered when nobody holds them up. -/
theorem exists_advance {i : ι} (n : Nat) (hrunning : p.Running i)
    (hfree : ∀ j, j ≠ i → p.Running j → I.Passes (p.tx j).own n (p.tx i) p.shared)
    (hok : ∀ q a, (∀ j, j ≠ i → q.tx j = p.tx j) → a.tx = i → ok q a) :
    ∃ q, Run I ok p q ∧ (∀ j, j ≠ i → q.tx j = p.tx j) ∧
      (q.tx i, q.shared) = I.advance n (p.tx i) p.shared := by
  induction n generalizing p with
  | zero => exact ⟨p, .refl, fun _ _ => rfl, rfl⟩
  | succ n ih =>
    rw [Isolation.advance]
    cases hrest : (p.tx i).rest with
    | pure a => exact ⟨p, .refl, fun _ _ => rfl, rfl⟩
    | throw e => exact ⟨p, .refl, fun _ _ => rfl, rfl⟩
    | call c next =>
      cases hcall : I.handler c (I.view (p.tx i).own p.shared) with
      | error e => exact ⟨p, .refl, fun _ _ => rfl, by simp only [hcall]⟩
      | ok out =>
        obtain ⟨r, s⟩ := out
        simp only [Isolation.Passes, hrest, hcall] at hfree
        have hstep : p.Step I (.call i c) _ :=
          .call hrunning hrest (fun j hj hjr => (hfree j hj hjr).1) hcall
        generalize hq : p.set i _ _ = q at hstep
        have htx : q.tx i = ⟨.running, (p.tx i).trace ++ [⟨c, r⟩], next r,
            I.write (p.tx i).own c (p.view I i) s⟩ := by rw [← hq, set_tx_self]
        have hshared : q.shared = I.outside p.shared s := by rw [← hq, set_shared]
        have hother (j : ι) (hj : j ≠ i) : q.tx j = p.tx j := hstep.tx_of_ne hj
        have hstatus : (p.tx i).status = .running := hrunning
        have hfree' : ∀ j, j ≠ i → q.Running j → I.Passes (q.tx j).own n (q.tx i) q.shared := by
          intro j hj hjr
          rw [Running, hother j hj] at hjr
          rw [hother j hj, htx, hshared, ← hstatus]
          exact (hfree j hj hjr).2
        have hok' (r : Pool S ε σ τ ι) (a : Action S ι) (hr : ∀ j, j ≠ i → r.tx j = q.tx j)
            (ha : a.tx = i) : ok r a := hok r a (fun j hj => (hr j hj).trans (hother j hj)) ha
        obtain ⟨q', hsteps, hother', hadvance⟩ := ih (p := q) (by rw [Running, htx]) hfree' hok'
        refine ⟨q', (hstep.run (hok p _ (fun _ _ => rfl) rfl)).trans hsteps,
          fun j hj => (hother' j hj).trans (hother j hj), ?_⟩
        simp only [hcall]
        rw [hadvance, htx, hshared, hstatus]
        rfl

/-- A transaction whose calls nobody holds up can run to its end and commit. -/
theorem exists_commit {i : ι} {tr : List (Σ c, S.Reply c)} {own : τ} {s : σ} (n : Nat)
    (hrunning : p.Running i)
    (hfree : ∀ j, j ≠ i → p.Running j → I.Passes (p.tx j).own n (p.tx i) p.shared)
    (hok : ∀ q a, (∀ j, j ≠ i → q.tx j = p.tx j) → a.tx = i → ok q a)
    (hend : I.advance n (p.tx i) p.shared = (⟨.running, tr, .pure (), own⟩, s)) :
    ∃ q, Run I ok p q ∧ q.Committed i ∧ (∀ j, j ≠ i → q.tx j = p.tx j) ∧
      q.shared = I.view own s := by
  obtain ⟨q, hsteps, hother, hadvance⟩ := exists_advance n hrunning hfree hok
  obtain ⟨htx, rfl⟩ := Prod.mk.inj (hadvance.trans hend)
  have hstep : q.Step I (.commit i) _ := .commit (by rw [Running, htx]) (by rw [htx])
  refine ⟨_, hsteps.trans (hstep.run (hok q _ hother rfl)), ?_, fun j hj => ?_, ?_⟩
  · rw [Committed, set_tx_self]
  · rw [hstep.tx_of_ne hj, hother j hj]
  · rw [set_shared, view, htx]

end Alone

end Pool

end EffectProgram
