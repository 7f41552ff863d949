import Mathlib.Algebra.Order.Group.Nat

/-!
# Descent along a run

A run makes steps of which some may achieve nothing. If no step raises a measure and each step of
a kind lowers it by some rate, enough steps of that kind bring it to zero, whatever the others do
and wherever they stand.
-/

namespace Descent

variable {σ ι : Type}

/-- What lets a measure of the states descend: an invariant that every allowed step keeps, under
which no allowed step raises the measure and the effective ones lower it by `rate`. -/
structure Descends (step : σ → ι → σ) (Inv : σ → Prop) (measure : σ → Nat)
    (Allowed Effective : ι → Prop) (rate : Nat) : Prop where
  inv : ∀ s i, Allowed i → Inv s → Inv (step s i)
  le : ∀ s i, Allowed i → Inv s → measure (step s i) ≤ measure s
  lowers : ∀ s i, Allowed i → Effective i → Inv s → measure (step s i) ≤ measure s - rate

variable {step : σ → ι → σ} {Inv : σ → Prop} {measure : σ → Nat} {Allowed Effective : ι → Prop}
  {rate : Nat}

lemma Descends.foldl_inv (h : Descends step Inv measure Allowed Effective rate) {steps : List ι}
    (hallowed : ∀ i ∈ steps, Allowed i) {s : σ} (hs : Inv s) : Inv (steps.foldl step s) := by
  induction steps generalizing s with
  | nil => exact hs
  | cons i rest ih =>
    rw [List.forall_mem_cons] at hallowed
    exact ih hallowed.2 (h.inv s i hallowed.1 hs)

/-- The effective steps among the steps of a run bring the measure down. -/
theorem Descends.foldl_le (h : Descends step Inv measure Allowed Effective rate)
    {steps effective : List ι} (hsub : effective.Sublist steps)
    (hallowed : ∀ i ∈ steps, Allowed i) (heffective : ∀ i ∈ effective, Effective i) {s : σ}
    (hs : Inv s) : measure (steps.foldl step s) ≤ measure s - effective.length * rate := by
  induction hsub generalizing s with
  | slnil => exact Nat.le_sub_of_add_le (by simp)
  | cons i _ ih =>
    rw [List.forall_mem_cons] at hallowed
    have hrest := ih hallowed.2 heffective (h.inv s i hallowed.1 hs)
    have hstep := h.le s i hallowed.1 hs
    exact hrest.trans (Nat.sub_le_sub_right hstep _)
  | @cons_cons effective _ i _ ih =>
    rw [List.forall_mem_cons] at hallowed heffective
    have hrest := ih hallowed.2 heffective.2 (h.inv s i hallowed.1 hs)
    have hstep := h.lowers s i hallowed.1 heffective.1 hs
    calc measure ((i :: _).foldl step s)
      _ ≤ measure (step s i) - effective.length * rate := hrest
      _ ≤ measure s - rate - effective.length * rate := Nat.sub_le_sub_right hstep _
      _ = measure s - (i :: effective).length * rate := by
        rw [Nat.sub_sub, List.length_cons, Nat.succ_mul, Nat.add_comm]

/-- Enough effective steps end the descent. -/
theorem Descends.foldl_eq_zero (h : Descends step Inv measure Allowed Effective rate)
    {steps effective : List ι} (hsub : effective.Sublist steps)
    (hallowed : ∀ i ∈ steps, Allowed i) (heffective : ∀ i ∈ effective, Effective i) {s : σ}
    (hs : Inv s) (henough : measure s ≤ effective.length * rate) :
    measure (steps.foldl step s) = 0 := by
  have hle := h.foldl_le hsub hallowed heffective hs
  rw [Nat.sub_eq_zero_of_le henough] at hle
  exact Nat.le_zero.mp hle

end Descent
