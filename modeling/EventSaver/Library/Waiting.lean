import EventSaver.Library.Pool
import Mathlib.Data.Fintype.Order
import Mathlib.Order.WellFounded

/-!
# Waiting

Open transactions of a pool that hold up one another. When a rank rises along every two waits in a
row nobody waits in a circle, and of finitely many some wait for nobody. A program that asks for
keyed things in an order is one source of such ranks.
-/

namespace EffectProgram

variable {S : Signature} {ε α β σ τ ι κ : Type}

namespace Program

variable {A : (c : S.Call) → S.Reply c → Prop} {R : κ → κ → Prop} {key : S.Call → Option κ}

/-- While every answer is one that `A` admits, the keys of the calls come after `k`. -/
def Above (A : (c : S.Call) → S.Reply c → Prop) (R : κ → κ → Prop) (key : S.Call → Option κ)
    (k : κ) (p : Program S ε α) : Prop :=
  p.Ensures (fun _ c r _ => A c r) (fun _ c => ∀ k', key c = some k' → R k k') (fun _ _ => True) ()

/-- While every answer is one that `A` admits, every key comes after those before it. -/
def Ascends (A : (c : S.Call) → S.Reply c → Prop) (R : κ → κ → Prop) (key : S.Call → Option κ) :
    Program S ε α → Prop
  | .pure _ => True
  | .throw _ => True
  | .call c next => ∀ r, A c r →
      (∀ k, key c = some k → (next r).Above A R key k) ∧ (next r).Ascends A R key

lemma Above.mono {k k' : κ} {p : Program S ε α} (h : p.Above A R key k)
    (hk : ∀ l, R k l → R k' l) : p.Above A R key k' := by
  induction p with
  | pure a => trivial
  | throw e => trivial
  | call c next ih => exact ⟨fun l hl => hk l (h.1 l hl), fun r _ hr => ih r (h.2 r () hr)⟩

lemma Above.bind {k : κ} {p : Program S ε α} {f : α → Program S ε β}
    (hp : p.Above A R key k) (hf : ∀ a, (f a).Above A R key k) : (p >>= f).Above A R key k :=
  Ensures.bind hp fun _ a _ => hf a

lemma Every.above {k : κ} {p : Program S ε α}
    (hp : p.Every fun c => ∀ k', key c = some k' → R k k') : p.Above A R key k := by
  induction p with
  | pure a => trivial
  | throw e => trivial
  | call c next ih => exact ⟨hp.1, fun r _ _ => ih r (hp.2 r)⟩

/-- A program that asks for nothing. -/
lemma Every.ascends {p : Program S ε α} (hp : p.Every fun c => key c = none) :
    p.Ascends A R key := by
  induction p with
  | pure a => trivial
  | throw e => trivial
  | call c next ih =>
    refine fun r _ => ⟨fun k hk => ?_, ih r (hp.2 r)⟩
    rw [hp.1] at hk
    cases hk

/-- What follows a program may ask for nothing more. -/
lemma Ascends.bind_none {p : Program S ε α} {f : α → Program S ε β}
    (hp : p.Ascends A R key) (hf : ∀ a, (f a).Every fun c => key c = none) :
    (p >>= f).Ascends A R key := by
  induction p with
  | pure a => exact (hf a).ascends
  | throw e => trivial
  | call c next ih =>
    intro r hr
    refine ⟨fun k hk => Above.bind ((hp r hr).1 k hk) fun a => ?_, ih r (hp r hr).2⟩
    refine Every.above ((hf a).mono fun c hc k' hk' => ?_)
    rw [hc] at hk'
    cases hk'

/-- A program may ask for nothing before another does. -/
lemma Ascends.none_bind {p : Program S ε α} {f : α → Program S ε β}
    (hp : p.Every fun c => key c = none) (hf : ∀ a, (f a).Ascends A R key) :
    (p >>= f).Ascends A R key := by
  induction p with
  | pure a => exact hf a
  | throw e => trivial
  | call c next ih =>
    refine fun r _ => ⟨fun k hk => ?_, ih r (hp.2 r)⟩
    rw [hp.1] at hk
    cases hk

/-- What follows a program may ask for what comes after `k`, if that comes after all that the program
has asked for. -/
lemma Ascends.bind {k : κ} {p : Program S ε α} {f : α → Program S ε β}
    (hp : p.Ascends A R key)
    (hbelow : p.Every fun c => ∀ k', key c = some k' → ∀ l, R k l → R k' l)
    (hf : ∀ a, (f a).Ascends A R key) (habove : ∀ a, (f a).Above A R key k) :
    (p >>= f).Ascends A R key := by
  induction p with
  | pure a => exact hf a
  | throw e => trivial
  | call c next ih =>
    intro r hr
    refine ⟨fun k' hk' => ?_, ih r (hp r hr).2 (hbelow.2 r)⟩
    exact Above.bind ((hp r hr).1 k' hk') fun a => (habove a).mono (hbelow.1 k' hk')

section Sums

variable {T : Signature} {A : (c : (S.sum T).Call) → (S.sum T).Reply c → Prop}
  {key : (S.sum T).Call → Option κ}

/-- A program of the first of two signatures. -/
lemma Ascends.inl {p : Program S ε α}
    (hp : p.Ascends (fun c => A (.inl c)) R fun c => key (.inl c)) :
    (p.inl : Program (S.sum T) ε α).Ascends A R key := by
  have habove {k : κ} {p : Program S ε α}
      (h : p.Above (fun c => A (.inl c)) R (fun c => key (.inl c)) k) :
      (p.inl : Program (S.sum T) ε α).Above A R key k := by
    induction p with
    | pure a => trivial
    | throw e => trivial
    | call c next ih => exact ⟨h.1, fun r _ hr => ih r (h.2 r () hr)⟩
  induction p with
  | pure a => trivial
  | throw e => trivial
  | call c next ih =>
    exact fun r hr => ⟨fun k hk => habove ((hp r hr).1 k hk), ih r (hp r hr).2⟩

/-- A program of the second of two signatures. -/
lemma Ascends.inr {p : Program T ε α}
    (hp : p.Ascends (fun c => A (.inr c)) R fun c => key (.inr c)) :
    (p.inr : Program (S.sum T) ε α).Ascends A R key := by
  have habove {k : κ} {p : Program T ε α}
      (h : p.Above (fun c => A (.inr c)) R (fun c => key (.inr c)) k) :
      (p.inr : Program (S.sum T) ε α).Above A R key k := by
    induction p with
    | pure a => trivial
    | throw e => trivial
    | call c next ih => exact ⟨h.1, fun r _ hr => ih r (h.2 r () hr)⟩
  induction p with
  | pure a => trivial
  | throw e => trivial
  | call c next ih =>
    exact fun r hr => ⟨fun k hk => habove ((hp r hr).1 k hk), ih r (hp r hr).2⟩

end Sums

/-- On a path with admitted answers, what is left to ask for comes after what has been. -/
lemma Path.ascends {p q : Program S ε α} {tr : List (Σ c, S.Reply c)} (h : Path p tr q)
    (hp : p.Ascends A R key) (hadmitted : ∀ e ∈ tr, A e.1 e.2) :
    q.Ascends A R key ∧ ∀ e ∈ tr, ∀ k, key e.1 = some k → q.Above A R key k := by
  have hensures {k : κ} {p q : Program S ε α} {tr : List (Σ c, S.Reply c)} (h : Path p tr q)
      (hadmitted : ∀ e ∈ tr, A e.1 e.2) (hp : p.Above A R key k) : q.Above A R key k := by
    induction h with
    | nil p => exact hp
    | cons _ ih =>
      obtain ⟨hr, htail⟩ := List.forall_mem_cons.mp hadmitted
      exact ih htail (hp.2 _ () hr)
  induction h with
  | nil p => exact ⟨hp, List.forall_mem_nil _⟩
  | @cons c next r tr q htail ih =>
    obtain ⟨hr, hrest⟩ := List.forall_mem_cons.mp hadmitted
    obtain ⟨habove, hascends⟩ := hp r hr
    obtain ⟨hq, hkeys⟩ := ih hascends hrest
    refine ⟨hq, List.forall_mem_cons.mpr ⟨fun k hk => ?_, hkeys⟩⟩
    exact hensures htail hrest (habove k hk)

end Program

/-- Some of those that a relation leads to are in a circle. -/
def Circular (R : ι → ι → Prop) : Prop := ∃ i, Relation.TransGen R i i

/-- If a rank rises along every two steps in a row, there is no circle. -/
theorem not_circular_of_rank {R : ι → ι → Prop} [Preorder κ] (rank : ι → κ)
    (h : ∀ i j k, R i j → R j k → rank i < rank j) : ¬ Circular R := by
  rintro ⟨i, hcircle⟩
  have hrank (i j : ι) (hpath : Relation.TransGen R i j) (k : ι) (hnext : R j k) :
      rank i < rank j := by
    induction hpath generalizing k with
    | single hstep => exact h _ _ k hstep hnext
    | tail _ hstep ih => exact (ih _ hstep).trans (h _ _ k hstep hnext)
  obtain ⟨k, hfirst, _⟩ := Relation.TransGen.head'_iff.mp hcircle
  exact lt_irrefl _ (hrank i i hcircle k hfirst)

/-- Without a circle some of those that are never left leads to nobody. -/
theorem exists_end_of_not_circular [Finite ι] {R : ι → ι → Prop} {P : ι → Prop}
    (h : ¬ Circular R) (hstays : ∀ i j, R i j → P j) (hsome : ∃ i, P i) :
    ∃ i, P i ∧ ∀ j, ¬ R i j := by
  let ahead (j i : ι) : Prop := Relation.TransGen R i j
  have : IsTrans ι ahead := ⟨fun _ _ _ hij hjk => hjk.trans hij⟩
  have : Std.Irrefl ahead := ⟨fun i hi => h ⟨i, hi⟩⟩
  have hwf : WellFounded ahead := Finite.wellFounded_of_trans_of_irrefl ahead
  obtain ⟨i, hi, hleast⟩ := hwf.has_min {i | P i} hsome
  exact ⟨i, hi, fun j hstep => hleast j (hstays i j hstep) (.single hstep)⟩

namespace Pool

variable (I : Isolation S ε σ τ)

/-- The transaction has raised. -/
def Raises (p : Pool S ε σ τ ι) (i : ι) : Prop :=
  (∃ e, (p.tx i).rest = .throw e) ∨
    ∃ c next e, (p.tx i).rest = .call c next ∧ I.handler c (p.view I i) = .error e

/-- An open transaction gets its next call answered, commits, or has raised. -/
def Proceeds [DecidableEq ι] (p : Pool S ε σ τ ι) (i : ι) : Prop :=
  (∃ c q, p.Step I (.call i c) q) ∨ (∃ q, p.Step I (.commit i) q) ∨ p.Raises I i

variable {I} {p q : Pool S ε σ τ ι} {ok : Pool S ε σ τ ι → Action S ι → Prop}

/-- A transaction that waits for nobody proceeds. -/
lemma proceeds_of_not_waiting [DecidableEq ι] {i : ι} (hrunning : p.Running i)
    (h : ∀ j, ¬ p.WaitsFor I i j) : p.Proceeds I i := by
  cases hrest : (p.tx i).rest with
  | pure a => exact .inr (.inl ⟨_, .commit hrunning hrest⟩)
  | throw e => exact .inr (.inr (.inl ⟨e, hrest⟩))
  | call c next =>
    cases hanswer : I.handler c (p.view I i) with
    | error e => exact .inr (.inr (.inr ⟨c, next, e, hrest, hanswer⟩))
    | ok out =>
      refine .inl ⟨c, _, .call hrunning hrest (fun j hj hjr hwaits => ?_) hanswer⟩
      exact h j ⟨hrunning, hjr, hj, c, next, hrest, hwaits⟩

/-- The answers a transaction has got are ones the handler gives. -/
lemma Run.admitted [DecidableEq ι] {A : (c : S.Call) → S.Reply c → Prop} {s : σ}
    {program : ι → Program S ε Unit} (h : Run I ok (start I s program) p)
    (hA : ∀ c s r s', I.handler c s = .ok (r, s') → A c r) (i : ι) :
    ∀ e ∈ (p.tx i).trace, A e.1 e.2 := by
  refine h.invariant (P := fun p => ∀ i, ∀ e ∈ (p.tx i).trace, A e.1 e.2)
    (fun i => List.forall_mem_nil _) (fun {p a q} hp _ hstep => ?_) i
  refine hstep.forall_tx (P := fun _ t => ∀ e ∈ t.trace, A e.1 e.2) hp ?_
  cases hstep with
  | @call i c next r s running rest free answer =>
    rw [Action.tx, set_tx_self]
    exact List.forall_mem_append.mpr ⟨hp i, List.forall_mem_singleton.mpr (hA c _ r s answer)⟩
  | @commit i running rest =>
    rw [Action.tx, set_tx_self]
    exact hp i
  | @abort i running =>
    rw [Action.tx, set_tx_self]
    exact hp i

end Pool

end EffectProgram
