import EventSaver.Library.Program

/-!
# One program on two states

A relation that every call keeps, with the same answer on both sides, is kept by every faulty run
and by every transaction.
-/

namespace EffectProgram

variable {S : Signature} {ε α σ τ : Type} {K : Handler S ε σ} {H : Handler S ε τ}
  {R : σ → τ → Prop}

/-- Related states are answered alike, and stay related. -/
def InStep (K : Handler S ε σ) (H : Handler S ε τ) (R : σ → τ → Prop) : Prop :=
  ∀ c s t, R s t → (∃ e, K c s = .error e ∧ H c t = .error e) ∨
    ∃ r s' t', K c s = .ok (r, s') ∧ H c t = .ok (r, t') ∧ R s' t'

lemma InStep.runFaulty (h : InStep K H R) (f : Option (Nat × ε)) (p : Program S ε α) {s : σ} {t : τ}
    (hR : R s t) : (runFaulty K f p s).1 = (runFaulty H f p t).1 ∧
      R (runFaulty K f p s).2 (runFaulty H f p t).2 := by
  induction p generalizing f s t with
  | pure a => rcases f with _ | ⟨_ | n, e⟩ <;> exact ⟨rfl, hR⟩
  | throw e => rcases f with _ | ⟨_ | n, e⟩ <;> exact ⟨rfl, hR⟩
  | call c next ih =>
    by_cases hf : ∃ e, f = some (0, e)
    · obtain ⟨e, rfl⟩ := hf
      exact ⟨rfl, hR⟩
    · rw [EffectProgram.runFaulty.eq_4 _ _ _ _ _ fun e he => hf ⟨e, he⟩,
        EffectProgram.runFaulty.eq_4 _ _ _ _ _ fun e he => hf ⟨e, he⟩]
      rcases h c s t hR with ⟨e, hs, ht⟩ | ⟨r, s', t', hs, ht, hR'⟩
      · rw [hs, ht]
        exact ⟨rfl, hR⟩
      · rw [hs, ht]
        exact ih r _ hR'

theorem InStep.transact (h : InStep K H R) {rollback : σ → σ → σ} {rollback' : τ → τ → τ}
    (hrollback : ∀ {s t s' t'}, R s t → R s' t' → R (rollback s s') (rollback' t t')) (f : Fault ε)
    (p : Program S ε α) {s : σ} {t : τ} (hR : R s t) :
    (transact K rollback f p s).1 = (transact H rollback' f p t).1 ∧
      R (transact K rollback f p s).2 (transact H rollback' f p t).2 := by
  obtain ⟨hout, hreached⟩ := h.runFaulty f.pending p hR
  rw [EffectProgram.transact, EffectProgram.transact]
  generalize EffectProgram.runFaulty K f.pending p s = reached at hout hreached ⊢
  generalize EffectProgram.runFaulty H f.pending p t = reached' at hout hreached ⊢
  obtain ⟨out, s'⟩ := reached
  obtain ⟨out', t'⟩ := reached'
  obtain rfl : out = out' := hout
  cases out with
  | error e => exact ⟨rfl, hrollback hR hreached⟩
  | ok a => cases f <;> exact ⟨rfl, hreached⟩

end EffectProgram
