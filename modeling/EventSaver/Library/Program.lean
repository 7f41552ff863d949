import Mathlib.Logic.Basic
import Mathlib.Tactic.Lemma

/-!
# Effect programs

A program is a tree of calls to an environment. A handler gives the calls a meaning on a
state, and a transaction runs a program to its commit or rolls it back. Faults may strike
before any call, at the commit, or after the commit has taken effect.
-/

namespace EffectProgram

section Raising

variable {ε α β : Type}

@[simp] lemma ok_bind (a : α) (f : α → Except ε β) : (Except.ok a >>= f) = f a := rfl

@[simp] lemma error_bind (e : ε) (f : α → Except ε β) :
    (Except.error e >>= f) = Except.error e := rfl

@[simp] lemma map_ok (f : α → β) (a : α) : f <$> (Except.ok a : Except ε α) = .ok (f a) := rfl

@[simp] lemma map_error (f : α → β) (e : ε) :
    f <$> (Except.error e : Except ε α) = .error e := rfl

@[simp] lemma pure_eq_ok (a : α) : (pure a : Except ε α) = .ok a := rfl

lemma bind_eq_ok {x : Except ε α} {f : α → Except ε β} {b : β} :
    (x >>= f) = .ok b ↔ ∃ a, x = .ok a ∧ f a = .ok b := by
  cases x <;> simp

lemma map_eq_ok {x : Except ε α} {f : α → β} {b : β} :
    f <$> x = .ok b ↔ ∃ a, x = .ok a ∧ f a = b := by
  cases x <;> simp

lemma except_map_bind {γ : Type} (x : Except ε α) (g : α → Except ε β) (f : β → γ) :
    (x >>= g).map f = x >>= fun a => (g a).map f := by
  cases x <;> rfl

lemma except_map_eq_ok {x : Except ε α} {f : α → β} {b : β} :
    x.map f = .ok b ↔ ∃ a, x = .ok a ∧ f a = b := by
  cases x <;> simp [Except.map]

end Raising

/-- The calls a program can make and the type of the answer to each. -/
structure Signature where
  Call : Type
  Reply : Call → Type

/-- A program that makes calls of `S`, may raise an `ε` and returns an `α`. -/
inductive Program (S : Signature) (ε α : Type) where
  | pure (a : α)
  | throw (e : ε)
  | call (c : S.Call) (next : S.Reply c → Program S ε α)

/-- The meaning of every call on a state: an answer and the next state, or an exception. -/
abbrev Handler (S : Signature) (ε σ : Type) := (c : S.Call) → σ → Except ε (S.Reply c × σ)

/-- The calls of two signatures together. -/
def Signature.sum (S T : Signature) : Signature := ⟨S.Call ⊕ T.Call, Sum.elim S.Reply T.Reply⟩

/-- Two handlers on one state. -/
def Handler.sum {S T : Signature} {ε σ : Type} (H : Handler S ε σ) (K : Handler T ε σ) :
    Handler (S.sum T) ε σ
  | .inl c => H c
  | .inr c => K c

namespace Program

variable {S : Signature} {ε α β σ κ : Type}

def bind : Program S ε α → (α → Program S ε β) → Program S ε β
  | .pure a, f => f a
  | .throw e, _ => .throw e
  | .call c next, f => .call c fun r => (next r).bind f

instance : Monad (Program S ε) where
  pure := .pure
  bind := .bind

/-- One call, returning its answer. -/
def perform (c : S.Call) : Program S ε (S.Reply c) := .call c .pure

/-- A computation without calls. -/
def lift : Except ε α → Program S ε α
  | .ok a => .pure a
  | .error e => .throw e

@[simp] lemma pure_eq (a : α) : (Pure.pure a : Program S ε α) = .pure a := rfl

@[simp] lemma bind_pure' (a : α) (f : α → Program S ε β) : (Program.pure a >>= f) = f a := rfl

@[simp] lemma bind_call (c : S.Call) (next : S.Reply c → Program S ε α)
    (f : α → Program S ε β) :
    (Program.call c next >>= f) = .call c fun r => next r >>= f := rfl

@[simp] lemma perform_bind (c : S.Call) (f : S.Reply c → Program S ε β) :
    (perform c >>= f) = .call c f := rfl

@[simp] lemma lift_ok (a : α) : (lift (.ok a) : Program S ε α) = .pure a := rfl

lemma bind_pure_eq (p : Program S ε α) : p.bind .pure = p := by
  induction p with
  | pure a => rfl
  | throw e => rfl
  | call c next ih => exact congrArg (Program.call c) (funext ih)

lemma bind_bind {γ : Type} (p : Program S ε α) (f : α → Program S ε β)
    (g : β → Program S ε γ) : (p.bind f).bind g = p.bind fun a => (f a).bind g := by
  induction p with
  | pure a => rfl
  | throw e => rfl
  | call c next ih => exact congrArg (Program.call c) (funext ih)

instance : LawfulMonad (Program S ε) :=
  LawfulMonad.mk' (Program S ε) bind_pure_eq (fun _ _ => rfl) bind_bind

/-- Run a program to its result and the state it leaves. -/
def run (H : Handler S ε σ) : Program S ε α → σ → Except ε α × σ
  | .pure a, s => (.ok a, s)
  | .throw e, s => (.error e, s)
  | .call c next, s =>
    match H c s with
    | .ok (r, s') => (next r).run H s'
    | .error e => (.error e, s)

/-- The calls a run gets answered, with their answers. -/
def trace (H : Handler S ε σ) : Program S ε α → σ → List (Σ c, S.Reply c)
  | .pure _, _ => []
  | .throw _, _ => []
  | .call c next, s =>
    match H c s with
    | .ok (r, s') => ⟨c, r⟩ :: (next r).trace H s'
    | .error _ => []

/-- A program of the first of two signatures. -/
def inl {T : Signature} : Program S ε α → Program (S.sum T) ε α
  | .pure a => .pure a
  | .throw e => .throw e
  | .call c next => .call (S := S.sum T) (.inl c) fun r => (next r).inl

/-- A program of the second of two signatures. -/
def inr {T : Signature} : Program S ε α → Program (T.sum S) ε α
  | .pure a => .pure a
  | .throw e => .throw e
  | .call c next => .call (S := T.sum S) (.inr c) fun r => (next r).inr

variable (H : Handler S ε σ)

@[simp] lemma run_pure (a : α) (s : σ) : run H (.pure a) s = (.ok a, s) := rfl

lemma run_call (c : S.Call) (next : S.Reply c → Program S ε α) (s : σ) :
    run H (.call c next) s =
      match H c s with
      | .ok (r, s') => run H (next r) s'
      | .error e => (.error e, s) := by
  rw [run]

lemma run_call_ok {c : S.Call} {next : S.Reply c → Program S ε α} {s s' : σ} {r : S.Reply c}
    (h : H c s = .ok (r, s')) : run H (.call c next) s = run H (next r) s' := by
  rw [run_call, h]

lemma run_call_error {c : S.Call} {next : S.Reply c → Program S ε α} {s : σ} {e : ε}
    (h : H c s = .error e) : run H (.call c next) s = (.error e, s) := by
  rw [run_call, h]

lemma run_bind (p : Program S ε α) (f : α → Program S ε β) (s : σ) :
    run H (p >>= f) s =
      match run H p s with
      | (.ok a, s') => run H (f a) s'
      | (.error e, s') => (.error e, s') := by
  induction p generalizing s with
  | pure a => rfl
  | throw e => rfl
  | call c next ih =>
    rw [bind_call, run_call, run_call]
    cases H c s with
    | error e => rfl
    | ok out => exact ih out.1 out.2

lemma run_bind_ok {p : Program S ε α} {f : α → Program S ε β} {s s' : σ} {a : α}
    (h : run H p s = (.ok a, s')) : run H (p >>= f) s = run H (f a) s' := by
  rw [run_bind, h]

lemma run_bind_error {p : Program S ε α} {f : α → Program S ε β} {s s' : σ} {e : ε}
    (h : run H p s = (.error e, s')) : run H (p >>= f) s = (.error e, s') := by
  rw [run_bind, h]

lemma run_lift (x : Except ε α) (s : σ) : (lift x : Program S ε α).run H s = (x, s) := by
  cases x <;> rfl

lemma run_lift_bind (x : Except ε α) (f : α → Program S ε β) (s : σ) :
    run H (lift x >>= f) s =
      match x with
      | .ok a => run H (f a) s
      | .error e => (.error e, s) := by
  cases x <;> rfl

lemma run_inr {T : Signature} (K : Handler T ε σ) (p : Program S ε α) (s : σ) :
    (p.inr : Program (T.sum S) ε α).run (K.sum H) s = run H p s := by
  induction p generalizing s with
  | pure a => rfl
  | throw e => rfl
  | call c next ih =>
    cases hcall : H c s with
    | error e =>
      have hsum : K.sum H (.inr c) s = .error e := hcall
      exact (run_call_error (K.sum H) (c := .inr c) hsum).trans (run_call_error H hcall).symm
    | ok out =>
      obtain ⟨r, s'⟩ := out
      have hsum : K.sum H (.inr c) s = .ok (r, s') := hcall
      exact (run_call_ok (K.sum H) (c := .inr c) hsum).trans
        ((ih r s').trans (run_call_ok H hcall).symm)

/-- Every call the program can make satisfies `P`. -/
def Every (P : S.Call → Prop) : Program S ε α → Prop
  | .pure _ => True
  | .throw _ => True
  | .call c next => P c ∧ ∀ r, (next r).Every P

lemma Every.bind {P : S.Call → Prop} {p : Program S ε α} {f : α → Program S ε β}
    (hp : p.Every P) (hf : ∀ a, (f a).Every P) : (p >>= f).Every P := by
  induction p with
  | pure a => exact hf a
  | throw e => trivial
  | call c next ih => exact ⟨hp.1, fun r => ih r (hp.2 r)⟩

lemma Every.mono {P Q : S.Call → Prop} {p : Program S ε α} (hp : p.Every P)
    (h : ∀ c, P c → Q c) : p.Every Q := by
  induction p with
  | pure a => trivial
  | throw e => trivial
  | call c next ih => exact ⟨h c hp.1, fun r => ih r (hp.2 r)⟩

lemma every_of_forall {P : S.Call → Prop} (h : ∀ c, P c) (p : Program S ε α) : p.Every P := by
  induction p with
  | pure a => trivial
  | throw e => trivial
  | call c next ih => exact ⟨h c, ih⟩

lemma Every.inl {T : Signature} {P : (S.sum T).Call → Prop} {p : Program S ε α}
    (hp : p.Every fun c => P (.inl c)) : (p.inl : Program (S.sum T) ε α).Every P := by
  induction p with
  | pure a => trivial
  | throw e => trivial
  | call c next ih => exact ⟨hp.1, fun r => ih r (hp.2 r)⟩

lemma every_inr {T : Signature} {P : (T.sum S).Call → Prop} (h : ∀ c, P (.inr c))
    (p : Program S ε α) : (p.inr : Program (T.sum S) ε α).Every P := by
  induction p with
  | pure a => trivial
  | throw e => trivial
  | call c next ih => exact ⟨h c, ih⟩

lemma every_lift {P : S.Call → Prop} (x : Except ε α) : (lift x : Program S ε α).Every P := by
  cases x <;> trivial

/-- As long as every answer takes what is known to something that `A` admits, the program makes
only calls that satisfy `P` and returns only values that satisfy `Q`, given what is known then. -/
def Ensures (A : κ → (c : S.Call) → S.Reply c → κ → Prop) (P : κ → S.Call → Prop)
    (Q : κ → α → Prop) : κ → Program S ε α → Prop
  | k, .pure a => Q k a
  | _, .throw _ => True
  | k, .call c next => P k c ∧ ∀ r k', A k c r k' → (next r).Ensures A P Q k'

section Ensures

variable {A : κ → (c : S.Call) → S.Reply c → κ → Prop} {P : κ → S.Call → Prop} {Q : κ → α → Prop}
  {k : κ} {p : Program S ε α}

lemma Ensures.bind {R : κ → β → Prop} {f : α → Program S ε β} (hp : p.Ensures A P Q k)
    (hf : ∀ k a, Q k a → (f a).Ensures A P R k) : (p >>= f).Ensures A P R k := by
  induction p generalizing k with
  | pure a => exact hf k a hp
  | throw e => trivial
  | call c next ih => exact ⟨hp.1, fun r k' hr => ih r (hp.2 r k' hr)⟩

lemma Every.ensures {P : S.Call → Prop} (hp : p.Every P) :
    p.Ensures A (fun _ => P) (fun _ _ => True) k := by
  induction p generalizing k with
  | pure a => trivial
  | throw e => trivial
  | call c next ih => exact ⟨hp.1, fun r k' _ => ih r (hp.2 r)⟩

lemma Ensures.mono {P' : κ → S.Call → Prop} (hp : p.Ensures A P Q k)
    (h : ∀ k c, P k c → P' k c) : p.Ensures A P' Q k := by
  induction p generalizing k with
  | pure a => exact hp
  | throw e => trivial
  | call c next ih => exact ⟨h k c hp.1, fun r k' hr => ih r (hp.2 r k' hr)⟩

lemma Ensures.inr {T : Signature} {A : κ → (c : (T.sum S).Call) → (T.sum S).Reply c → κ → Prop}
    {P : κ → (T.sum S).Call → Prop}
    (hp : p.Ensures (fun k c => A k (.inr c)) (fun k c => P k (.inr c)) Q k) :
    (p.inr : Program (T.sum S) ε α).Ensures A P Q k := by
  induction p generalizing k with
  | pure a => exact hp
  | throw e => trivial
  | call c next ih => exact ⟨hp.1, fun r k' hr => ih r (hp.2 r k' hr)⟩

end Ensures

/-- A program runs on a part of the state as on the whole if each of its calls does. -/
theorem Every.run_map {τ : Type} {P : S.Call → Prop} {p : Program S ε α} (hp : p.Every P)
    {K : Handler S ε τ} {H : Handler S ε σ} {π : τ → σ}
    (h : ∀ c, P c → ∀ t, (K c t).map (fun out => (out.1, π out.2)) = H c (π t)) (t : τ) :
    p.run H (π t) = ((p.run K t).1, π (p.run K t).2) := by
  induction p generalizing t with
  | pure a => rfl
  | throw e => rfl
  | call c next ih =>
    have hcall := h c hp.1 t
    rw [run_call, run_call, ← hcall]
    cases K c t with
    | error e => rfl
    | ok out => exact ih out.1 (hp.2 out.1) out.2

end Program

/-- What can go wrong in one transaction besides what the program raises itself: an exception
before the call of a given number (the commit counts as the last call), or an exception that
hides a commit that took effect. -/
inductive Fault (ε : Type) where
  | none
  | before (n : Nat) (e : ε)
  | unacknowledged (e : ε)

namespace Fault

variable {ε : Type}

def pending : Fault ε → Option (Nat × ε)
  | .before n e => some (n, e)
  | _ => Option.none

end Fault

section Transactions

variable {S : Signature} {ε α σ : Type}

/-- Run a program, raising the pending exception once its calls have been made. -/
def runFaulty (H : Handler S ε σ) :
    Option (Nat × ε) → Program S ε α → σ → Except ε α × σ
  | some (0, e), _, s => (.error e, s)
  | _, .pure a, s => (.ok a, s)
  | _, .throw e, s => (.error e, s)
  | f, .call c next, s =>
    match H c s with
    | .ok (r, s') => runFaulty H (f.map fun p => (p.1 - 1, p.2)) (next r) s'
    | .error e => (.error e, s)

/-- Whether a transaction under fault `f` takes effect. -/
def commits (H : Handler S ε σ) (f : Fault ε) (p : Program S ε α) (s : σ) : Bool :=
  (runFaulty H f.pending p s).1.isOk

/-- A program as one transaction: its effects are kept if it reaches the commit, otherwise
`rollback` builds the next state from the state at the start and the one reached. -/
def transact (H : Handler S ε σ) (rollback : σ → σ → σ) (f : Fault ε) (p : Program S ε α)
    (s : σ) : Except ε α × σ :=
  match runFaulty H f.pending p s with
  | (.error e, s') => (.error e, rollback s s')
  | (.ok a, s') =>
    match f with
    | .unacknowledged e => (.error e, s')
    | _ => (.ok a, s')

variable (H : Handler S ε σ) (rollback : σ → σ → σ)

lemma runFaulty_none (p : Program S ε α) (s : σ) : runFaulty H none p s = p.run H s := by
  induction p generalizing s with
  | pure a => rfl
  | throw e => rfl
  | call c next ih =>
    rw [runFaulty, Program.run_call]
    · cases H c s with
      | error e => rfl
      | ok out => exact ih out.1 out.2
    · intro e h
      cases h

/-- A relation that the calls of a program preserve when they are answered holds between the ends
of its faulty runs. -/
theorem Program.Every.runFaulty_rel {R : σ → σ → Prop} {P : S.Call → Prop}
    {p : Program S ε α} (hp : p.Every P) (refl : ∀ s, R s s)
    (trans : ∀ {s t u}, R s t → R t u → R s u)
    (step : ∀ c, P c → ∀ s r s', H c s = .ok (r, s') → R s s') (f : Option (Nat × ε)) (s : σ) :
    R s (runFaulty H f p s).2 := by
  induction p generalizing f s with
  | pure a => rcases f with _ | ⟨_ | n, e⟩ <;> exact refl s
  | throw e => rcases f with _ | ⟨_ | n, e⟩ <;> exact refl s
  | call c next ih =>
    have hstep (g : Option (Nat × ε)) (hg : ∀ e, g ≠ some (0, e)) :
        R s (runFaulty H g (.call c next) s).2 := by
      rw [runFaulty.eq_4 _ _ _ _ _ fun e => hg e]
      cases hc : H c s with
      | error e' => exact refl s
      | ok out => exact trans (step c hp.1 s out.1 out.2 hc) (ih out.1 (hp.2 out.1) _ out.2)
    rcases f with _ | ⟨_ | n, e⟩
    · exact hstep none nofun
    · exact refl s
    · exact hstep _ (by simp)

/-- `Program.Every.runFaulty_rel` for a relation that every call preserves. -/
theorem runFaulty_rel {R : σ → σ → Prop} (refl : ∀ s, R s s)
    (trans : ∀ {s t u}, R s t → R t u → R s u)
    (step : ∀ c s r s', H c s = .ok (r, s') → R s s') (f : Option (Nat × ε))
    (p : Program S ε α) (s : σ) : R s (runFaulty H f p s).2 :=
  (Program.every_of_forall (fun _ => trivial) p).runFaulty_rel H refl trans
    (fun c _ => step c) f s

/-- `Program.Every.runFaulty_rel` for runs without faults. -/
theorem Program.Every.run_rel {R : σ → σ → Prop} {P : S.Call → Prop} {p : Program S ε α}
    (hp : p.Every P) (refl : ∀ s, R s s) (trans : ∀ {s t u}, R s t → R t u → R s u)
    (step : ∀ c, P c → ∀ s r s', H c s = .ok (r, s') → R s s') (s : σ) :
    R s (p.run H s).2 :=
  runFaulty_none H p s ▸ hp.runFaulty_rel H refl trans step none s

/-- A relation that every answered call preserves holds between the ends of a run. -/
theorem Program.run_rel {R : σ → σ → Prop} (refl : ∀ s, R s s)
    (trans : ∀ {s t u}, R s t → R t u → R s u)
    (step : ∀ c s r s', H c s = .ok (r, s') → R s s') (p : Program S ε α) (s : σ) :
    R s (p.run H s).2 :=
  runFaulty_none H p s ▸ runFaulty_rel H refl trans step none p s

/-- A run that ends, cut after its first part. -/
lemma Program.run_bind_eq_ok {β : Type} {p : Program S ε α} {f : α → Program S ε β} {s s' : σ}
    {b : β} (h : (p >>= f).run H s = (.ok b, s')) :
    ∃ a t, p.run H s = (.ok a, t) ∧ (f a).run H t = (.ok b, s') := by
  rw [Program.run_bind] at h
  rcases hp : p.run H s with ⟨e | a, t⟩
  · rw [hp] at h
    cases h
  · rw [hp] at h
    exact ⟨a, t, rfl, h⟩

/-- A faulty run that still reaches the end is the fault-free run. -/
theorem run_of_runFaulty_ok {f : Option (Nat × ε)} {p : Program S ε α} {s s' : σ} {a : α}
    (h : runFaulty H f p s = (.ok a, s')) : p.run H s = (.ok a, s') := by
  induction p generalizing f s with
  | pure b =>
    match f, h with
    | none, h => exact h
    | some (_ + 1, _), h => exact h
  | throw e =>
    match f, h with
    | none, h => exact h
    | some (_ + 1, _), h => exact h
  | call c next ih =>
    match f, h with
    | none, h => rwa [runFaulty_none] at h
    | some (n + 1, e), h =>
      rw [runFaulty] at h
      · rw [Program.run_call]
        cases hc : H c s with
        | error e' => rw [hc] at h; exact h
        | ok out => rw [hc] at h; exact ih out.1 h
      · intro e' h'
        cases h'

lemma transact_none (p : Program S ε α) (s : σ) :
    transact H rollback .none p s =
      match p.run H s with
      | (.error e, s') => (.error e, rollback s s')
      | (.ok a, s') => (.ok a, s') := by
  rw [transact, show (Fault.none : Fault ε).pending = none from rfl, runFaulty_none]

/-- A transaction that takes effect leaves the state of the fault-free transaction. -/
theorem transact_of_commits {f : Fault ε} {p : Program S ε α} {s : σ}
    (h : commits H f p s = true) :
    (transact H rollback f p s).2 = (transact H rollback .none p s).2 ∧
      (transact H rollback .none p s).1.isOk = true := by
  rw [transact_none]
  rw [commits] at h
  rcases hrun : runFaulty H f.pending p s with ⟨r, s'⟩
  rw [hrun] at h
  cases r with
  | error e => simp [Except.isOk, Except.toBool] at h
  | ok a =>
    rw [run_of_runFaulty_ok H hrun, transact, hrun]
    cases f <;> simp [Except.isOk, Except.toBool]

/-- A transaction that does not take effect is rolled back. -/
theorem transact_of_not_commits {f : Fault ε} {p : Program S ε α} {s : σ}
    (h : commits H f p s = false) :
    ∃ e, transact H rollback f p s = (.error e, rollback s (runFaulty H f.pending p s).2) := by
  rw [commits] at h
  rcases hrun : runFaulty H f.pending p s with ⟨r, s'⟩
  rw [hrun] at h
  cases r with
  | ok a => simp [Except.isOk, Except.toBool] at h
  | error e => exact ⟨e, by rw [transact, hrun]⟩

/-- Only a committed transaction returns normally. -/
theorem commits_of_transact_ok {f : Fault ε} {p : Program S ε α} {s s' : σ} {a : α}
    (h : transact H rollback f p s = (.ok a, s')) : commits H f p s = true := by
  rw [commits]
  rcases hrun : runFaulty H f.pending p s with ⟨r, t⟩
  rw [transact, hrun] at h
  cases r with
  | ok a => rfl
  | error e => simp at h

end Transactions

section Refinement

variable {S : Signature} {ε α σ τ : Type} (K : Handler S ε τ) (H : Handler S ε σ) (π : τ → σ)

/-- The handler `K` does on the part `π` of its state what `H` does. -/
def Refines : Prop := ∀ c t, (K c t).map (fun out => (out.1, π out.2)) = H c (π t)

variable {K H π}

lemma Refines.call_ok (h : Refines K H π) {c : S.Call} {t : τ} {out : S.Reply c × τ}
    (hc : K c t = .ok out) : H c (π t) = .ok (out.1, π out.2) := by
  rw [← h c t, hc]
  rfl

lemma Refines.call_error (h : Refines K H π) {c : S.Call} {t : τ} {e : ε}
    (hc : K c t = .error e) : H c (π t) = .error e := by
  rw [← h c t, hc]
  rfl

theorem Refines.runFaulty (h : Refines K H π) (f : Option (Nat × ε)) (p : Program S ε α) (t : τ) :
    runFaulty H f p (π t) = ((runFaulty K f p t).1, π (runFaulty K f p t).2) := by
  induction p generalizing f t with
  | pure a => rcases f with _ | ⟨_ | n, e⟩ <;> rfl
  | throw e => rcases f with _ | ⟨_ | n, e⟩ <;> rfl
  | call c next ih =>
    have hstep (g : Option (Nat × ε)) (hg : ∀ e, g ≠ some (0, e)) :
        EffectProgram.runFaulty H g (.call c next) (π t) =
          ((EffectProgram.runFaulty K g (.call c next) t).1,
            π (EffectProgram.runFaulty K g (.call c next) t).2) := by
      rw [EffectProgram.runFaulty.eq_4 _ _ _ _ _ fun e => hg e,
        EffectProgram.runFaulty.eq_4 _ _ _ _ _ fun e => hg e]
      cases hc : K c t with
      | error e => rw [h.call_error hc]
      | ok out =>
        rw [h.call_ok hc]
        exact ih out.1 _ out.2
    rcases f with _ | ⟨_ | n, e⟩
    · exact hstep none nofun
    · rfl
    · exact hstep _ (by simp)

lemma Refines.commits (h : Refines K H π) (f : Fault ε) (p : Program S ε α) (t : τ) :
    commits H f p (π t) = commits K f p t := by
  rw [EffectProgram.commits, EffectProgram.commits, h.runFaulty]

/-- A transaction of the finer handler is one of the coarser. -/
theorem Refines.transact (h : Refines K H π) {rollback : τ → τ → τ} {rollback' : σ → σ → σ}
    (hrollback : ∀ t t', π (rollback t t') = rollback' (π t) (π t')) (f : Fault ε)
    (p : Program S ε α) (t : τ) :
    transact H rollback' f p (π t) =
      ((transact K rollback f p t).1, π (transact K rollback f p t).2) := by
  rw [EffectProgram.transact, EffectProgram.transact, h.runFaulty]
  rcases EffectProgram.runFaulty K f.pending p t with ⟨_ | _, t'⟩
  · simp only [hrollback]
  · cases f <;> rfl

lemma Refines.trace (h : Refines K H π) (p : Program S ε α) (t : τ) :
    p.trace H (π t) = p.trace K t := by
  induction p generalizing t with
  | pure a => rfl
  | throw e => rfl
  | call c next ih =>
    rw [Program.trace, Program.trace]
    cases hc : K c t with
    | error e => rw [h.call_error hc]
    | ok out =>
      rw [h.call_ok hc]
      exact congrArg (_ :: ·) (ih out.1 out.2)

end Refinement

end EffectProgram
