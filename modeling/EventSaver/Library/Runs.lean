import EventSaver.Library.Program

/-!
# Runs with their calls

A run that ends, together with the calls it has had answered, and the rules that put such runs
together.
-/

namespace EffectProgram

variable {S : Signature} {ε α β σ : Type}

/-- The program, started in `s`, gets the calls answered, returns `a` and leaves `s'`. -/
structure Program.Runs (H : Handler S ε σ) (p : Program S ε α) (s : σ)
    (calls : List (Σ c, S.Reply c)) (a : α) (s' : σ) : Prop where
  trace : p.trace H s = calls
  run : p.run H s = (.ok a, s')

namespace Program

variable {H : Handler S ε σ} {s t u : σ} {calls rest : List (Σ c, S.Reply c)} {a : α} {b : β}

lemma trace_bind {p : Program S ε α} (f : α → Program S ε β) (h : p.run H s = (.ok a, t)) :
    (p >>= f).trace H s = p.trace H s ++ (f a).trace H t := by
  induction p generalizing s with
  | pure a' =>
    cases h
    rfl
  | throw e => cases h
  | call c next ih =>
    rw [bind_call, trace, trace]
    rw [run_call] at h
    cases hc : H c s with
    | error e =>
      rw [hc] at h
      cases h
    | ok out =>
      rw [hc] at h
      exact congrArg (_ :: ·) (ih out.1 h)

lemma Runs.pure (a : α) (s : σ) : Runs H (.pure a) s [] a s := ⟨rfl, rfl⟩

lemma Runs.call {c : S.Call} {r : S.Reply c} {next : S.Reply c → Program S ε α}
    (hc : H c s = .ok (r, t)) (h : Runs H (next r) t rest a u) :
    Runs H (.call c next) s (⟨c, r⟩ :: rest) a u := by
  constructor
  · rw [Program.trace, hc, ← h.trace]
  · rw [run_call_ok H hc, h.run]

lemma Runs.bind {p : Program S ε α} {f : α → Program S ε β} (hp : Runs H p s calls a t)
    (hf : Runs H (f a) t rest b u) : Runs H (p >>= f) s (calls ++ rest) b u := by
  constructor
  · rw [trace_bind f hp.run, hp.trace, hf.trace]
  · rw [run_bind_ok H hp.run, hf.run]

/-- A run that ends is the same under a handler that gives the same answers where there are any. -/
lemma run_of_agree {K : Handler S ε σ} (hagree : ∀ c s out, H c s = .ok out → K c s = .ok out)
    {p : Program S ε α} (h : p.run H s = (.ok a, t)) : p.run K s = (.ok a, t) := by
  induction p generalizing s with
  | pure a' => exact h
  | throw e => cases h
  | call c next ih =>
    rw [run_call] at h
    cases hc : H c s with
    | error e =>
      rw [hc] at h
      cases h
    | ok out =>
      rw [hc] at h
      rw [run_call_ok K (hagree c s out hc)]
      exact ih out.1 h

end Program

end EffectProgram
