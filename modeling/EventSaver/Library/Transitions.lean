import Mathlib.Algebra.Order.Group.Nat

/-!
# Labelled transitions

Runs of a labelled step relation whose labels are of a kind. What every step keeps holds along a
run, and where every step lowers a measure the runs are bounded and can be continued to one that
admits no further step.
-/

namespace Transitions

variable {σ ι : Type} (Step : ι → σ → σ → Prop)

/-- A run by steps with labels in `Ok`. -/
inductive Run (Ok : ι → Prop) : List ι → σ → σ → Prop
  | nil (s : σ) : Run Ok [] s s
  | cons {i : ι} {labels : List ι} {s t u : σ} (hi : Ok i) (hstep : Step i s t)
    (hrun : Run Ok labels t u) : Run Ok (i :: labels) s u

/-- No step with a label in `Ok` is left. -/
def Ended (Ok : ι → Prop) (s : σ) : Prop := ∀ i t, Ok i → ¬ Step i s t

variable {Step} {Ok : ι → Prop} {labels more : List ι} {s t u : σ}

lemma Run.append (h : Run Step Ok labels s t) (h' : Run Step Ok more t u) :
    Run Step Ok (labels ++ more) s u := by
  induction h with
  | nil s => exact h'
  | cons hi hstep _ ih => exact .cons hi hstep (ih h')

lemma Run.mono {Ok' : ι → Prop} (h : Run Step Ok labels s t) (hOk : ∀ i, Ok i → Ok' i) :
    Run Step Ok' labels s t := by
  induction h with
  | nil s => exact .nil s
  | cons hi hstep _ ih => exact .cons (hOk _ hi) hstep ih

/-- What every step keeps holds at the end of a run. -/
theorem Run.invariant {I : σ → Prop} (h : Run Step Ok labels s t)
    (hstep : ∀ i s t, Ok i → Step i s t → I s → I t) (hs : I s) : I t := by
  induction h with
  | nil s => exact hs
  | cons hi hst _ ih => exact ih (hstep _ _ _ hi hst hs)

/-- A measure that every step lowers bounds the length of a run. -/
theorem Run.length_add_le {measure : σ → Nat} (h : Run Step Ok labels s t)
    (hlowers : ∀ i s t, Ok i → Step i s t → measure t < measure s) :
    labels.length + measure t ≤ measure s := by
  induction h with
  | nil s => exact (Nat.zero_add _).le
  | cons hi hst _ ih =>
    have hlt := hlowers _ _ _ hi hst
    rw [List.length_cons]
    omega

/-- A measure that every step lowers lets a run be continued to its end. -/
theorem exists_run_ended {measure : σ → Nat}
    (hlowers : ∀ i s t, Ok i → Step i s t → measure t < measure s) (s : σ) :
    ∃ labels t, Run Step Ok labels s t ∧ Ended Step Ok t := by
  induction hm : measure s using Nat.strong_induction_on generalizing s with
  | _ m ih =>
    by_cases hended : Ended Step Ok s
    · exact ⟨[], s, .nil s, hended⟩
    · unfold Ended at hended
      push Not at hended
      obtain ⟨i, t, hi, hst⟩ := hended
      obtain ⟨labels, u, hrun, hu⟩ := ih (measure t) (hm ▸ hlowers i s t hi hst) t rfl
      exact ⟨i :: labels, u, .cons hi hst hrun, hu⟩

end Transitions
