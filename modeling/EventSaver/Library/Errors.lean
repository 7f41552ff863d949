import EventSaver.Library.Program

/-!
# Errors of a program

Which errors a computation or a program raises, by the rules of its parts. The errors of a run are
those of the program and those of its handler.
-/

namespace EffectProgram

variable {S : Signature} {ε α β σ : Type}

/-- The error of a computation, if it raises one, has a property. -/
def RaisesOnly (P : ε → Prop) (x : Except ε α) : Prop := ∀ e, x = .error e → P e

/-- The errors a program throws itself have a property, whatever its calls are answered. -/
def Program.ThrowsOnly (P : ε → Prop) : Program S ε α → Prop
  | .pure _ => True
  | .throw e => P e
  | .call _ next => ∀ r, (next r).ThrowsOnly P

variable {P : ε → Prop}

namespace RaisesOnly

lemma ok (a : α) : RaisesOnly P (.ok a) := by
  intro e h
  cases h

lemma pure (a : α) : RaisesOnly P (Pure.pure a : Except ε α) := ok a

lemma error {e : ε} (he : P e) : RaisesOnly P (.error e : Except ε α) := by
  intro e' h
  cases h
  exact he

lemma bind {x : Except ε α} {f : α → Except ε β} (hx : RaisesOnly P x)
    (hf : ∀ a, RaisesOnly P (f a)) : RaisesOnly P (x >>= f) := by
  intro e h
  cases hxe : x with
  | error e' =>
    rw [hxe] at h
    cases h
    exact hx _ hxe
  | ok a =>
    rw [hxe] at h
    exact hf a e h

lemma ite {c : Prop} [Decidable c] {x y : Except ε α} (hx : RaisesOnly P x)
    (hy : RaisesOnly P y) : RaisesOnly P (if c then x else y) := by
  split
  · exact hx
  · exact hy

end RaisesOnly

namespace Program.ThrowsOnly

lemma pure (a : α) : (.pure a : Program S ε α).ThrowsOnly P := trivial

lemma perform (c : S.Call) : (Program.perform c : Program S ε (S.Reply c)).ThrowsOnly P :=
  fun _ => trivial

lemma lift {x : Except ε α} (hx : RaisesOnly P x) :
    (Program.lift x : Program S ε α).ThrowsOnly P := by
  cases x with
  | ok a => trivial
  | error e => exact hx e rfl

lemma bind {p : Program S ε α} {f : α → Program S ε β} (hp : p.ThrowsOnly P)
    (hf : ∀ a, (f a).ThrowsOnly P) : (p >>= f).ThrowsOnly P := by
  induction p with
  | pure a => exact hf a
  | throw e => exact hp
  | call c next ih => exact fun r => ih r (hp r)

lemma ite {c : Prop} [Decidable c] {p q : Program S ε α} (hp : p.ThrowsOnly P)
    (hq : q.ThrowsOnly P) : (if c then p else q).ThrowsOnly P := by
  split
  · exact hp
  · exact hq

/-- The error of a run is one of the program or one of the handler. -/
theorem run {H : Handler S ε σ} {p : Program S ε α} (hp : p.ThrowsOnly P)
    (hH : ∀ c s, RaisesOnly P (H c s)) {s s' : σ} {e : ε} (h : p.run H s = (.error e, s')) :
    P e := by
  induction p generalizing s with
  | pure a => cases h
  | throw e' =>
    cases h
    exact hp
  | call c next ih =>
    rw [run_call] at h
    cases hc : H c s with
    | error e' =>
      have herror := hH c s e' hc
      rw [hc] at h
      cases h
      exact herror
    | ok out =>
      rw [hc] at h
      exact ih out.1 (hp out.1) h

end Program.ThrowsOnly

/-- The exception that a fault raises. -/
def Fault.exception : Fault ε → Option ε
  | .none => Option.none
  | .before _ e => some e
  | .unacknowledged e => some e

/-- A transaction that raises what its fault does not raise does so without the fault as well. -/
theorem error_of_transact {H : Handler S ε σ} {rollback : σ → σ → σ} {f : Fault ε}
    {p : Program S ε α} {s s' : σ} {e : ε} (h : transact H rollback f p s = (.error e, s'))
    (hf : f.exception ≠ some e) : ∃ t, p.run H s = (.error e, t) := by
  have hfaulty (n : Option (Nat × ε)) (hn : ∀ k e', n = some (k, e') → e' ≠ e) {t : σ}
      (hrun : runFaulty H n p s = (.error e, t)) : p.run H s = (.error e, t) := by
    clear h
    induction p generalizing n s with
    | pure a =>
      match n, hrun with
      | some (0, e'), hrun =>
        cases hrun
        exact absurd rfl (hn 0 _ rfl)
    | throw e' =>
      match n, hrun with
      | none, hrun => exact hrun
      | some (0, e''), hrun =>
        cases hrun
        exact absurd rfl (hn 0 _ rfl)
      | some (k + 1, e''), hrun => exact hrun
    | call c next ih =>
      match n, hn, hrun with
      | none, _, hrun => rwa [runFaulty_none] at hrun
      | some (0, e''), hn, hrun =>
        cases hrun
        exact absurd rfl (hn 0 _ rfl)
      | some (k + 1, e''), hn, hrun =>
        rw [runFaulty] at hrun
        · rw [Program.run_call]
          cases hc : H c s with
          | error e' =>
            rw [hc] at hrun
            exact hrun
          | ok out =>
            rw [hc] at hrun
            refine ih out.1 _ (fun j e' hj => ?_) hrun
            cases hj
            exact hn (k + 1) _ rfl
        · intro e' he'
          cases he'
  rw [transact] at h
  rcases hrun : runFaulty H f.pending p s with ⟨e' | a, t⟩
  · rw [hrun] at h
    cases h
    refine ⟨t, hfaulty _ (fun k e'' hpending => ?_) hrun⟩
    cases f with
    | none => cases hpending
    | before k' e'' =>
      cases hpending
      exact fun heq => hf (congrArg some heq)
    | unacknowledged e'' => cases hpending
  · rw [hrun] at h
    cases f with
    | none => cases h
    | before k' e' => cases h
    | unacknowledged e' =>
      cases h
      exact absurd rfl hf

end EffectProgram
