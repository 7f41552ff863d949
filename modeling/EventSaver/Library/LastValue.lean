import Mathlib.Data.List.Basic
import Mathlib.Order.Basic
import Mathlib.Tactic.Lemma

/-!
# The last value of a list

`lastValue f` reads a list with a partial function and keeps the last value found. A loop that
overwrites an accumulator computes it, entries without a value do not matter, and neither does the
order when there is at most one entry with a value.
-/

namespace ListData

variable {α β γ : Type} (f : α → Option β)

/-- The value of the last entry that has one. -/
def lastValue (entries : List α) : Option β := entries.reverse.findSome? f

variable {f} {entries entries' : List α}

lemma lastValue_append :
    lastValue f (entries ++ entries') = (lastValue f entries').or (lastValue f entries) := by
  rw [lastValue, List.reverse_append, List.findSome?_append]
  rfl

lemma lastValue_cons (a : α) : lastValue f (a :: entries) = (lastValue f entries).or (f a) := by
  rw [← List.singleton_append, lastValue_append, lastValue, lastValue]
  cases hfa : f a <;> simp [hfa]

/-- What it means to be the last value: some entry has it, and no entry after that has any. -/
lemma lastValue_eq_some {b : β} :
    lastValue f entries = some b ↔
      ∃ front a back, entries = front ++ a :: back ∧ f a = some b ∧ ∀ c ∈ back, f c = none := by
  rw [lastValue, List.findSome?_eq_some_iff]
  constructor
  · rintro ⟨back, a, front, hentries, ha, hback⟩
    have hsplit : entries = front.reverse ++ a :: back.reverse := by
      rw [← List.reverse_reverse entries, hentries]
      simp
    exact ⟨front.reverse, a, back.reverse, hsplit, ha, fun c hc => hback c (List.mem_reverse.mp hc)⟩
  · rintro ⟨front, a, back, rfl, ha, hback⟩
    have hsplit : (front ++ a :: back).reverse = back.reverse ++ a :: front.reverse := by simp
    exact ⟨back.reverse, a, front.reverse, hsplit, ha, fun c hc => hback c (List.mem_reverse.mp hc)⟩

lemma lastValue_eq_none : lastValue f entries = none ↔ ∀ a ∈ entries, f a = none := by
  rw [lastValue, List.findSome?_eq_none_iff]
  simp only [List.mem_reverse]

lemma lastValue_eq_getLast? : lastValue f entries = (entries.filterMap f).getLast? := by
  rw [lastValue, ← List.head?_filterMap, List.filterMap_reverse, List.head?_reverse]

/-- A loop whose body overwrites one component of its state with the values of `f` leaves the last
value there. -/
theorem foldl_lastValue {step : γ → α → γ} (get : γ → Option β)
    (hstep : ∀ s a, get (step s a) = (f a).or (get s)) (entries : List α) (s : γ) :
    get (entries.foldl step s) = (lastValue f entries).or (get s) := by
  induction entries generalizing s with
  | nil => rfl
  | cons a rest ih => rw [List.foldl_cons, ih, hstep, lastValue_cons, Option.or_assoc]

/-- The value of the last entry that has one, for the values a relation gives. -/
def IsLast (R : α → β → Prop) (entries : List α) : Option β → Prop
  | some b => ∃ front a back, entries = front ++ a :: back ∧ R a b ∧ ∀ c ∈ back, ∀ d, ¬ R c d
  | none => ∀ a ∈ entries, ∀ b, ¬ R a b

/-- The value of an entry that is as late as every entry that has one. -/
def IsNewest {κ : Type} [LE κ] (time : α → κ) (R : α → β → Prop) (entries : List α) :
    Option β → Prop
  | some b => ∃ a ∈ entries, R a b ∧ ∀ c ∈ entries, ∀ d, R c d → time c ≤ time a
  | none => ∀ a ∈ entries, ∀ b, ¬ R a b

/-- The last value of a list of pairs is the last that a relation gives for the first components, if
it gives what is found in the pairs. -/
lemma isLast_map {R : α → β → Prop} {g : γ → α} {f : γ → Option β} {entries : List γ}
    (h : ∀ x ∈ entries, ∀ b, f x = some b ↔ R (g x) b) :
    IsLast R (entries.map g) (lastValue f entries) := by
  have hnone {x : γ} (hx : x ∈ entries) (hf : f x = none) (b : β) : ¬ R (g x) b := by
    rw [← h x hx, hf]
    exact (Option.some_ne_none b).symm
  cases hlast : lastValue f entries with
  | none =>
    rw [IsLast, List.forall_mem_map]
    exact fun x hx b => hnone hx (lastValue_eq_none.mp hlast x hx) b
  | some b =>
    obtain ⟨front, x, back, rfl, hx, hback⟩ := lastValue_eq_some.mp hlast
    refine ⟨front.map g, g x, back.map g, by rw [List.map_append, List.map_cons], ?_, ?_⟩
    · exact (h x (List.mem_append_right _ List.mem_cons_self) b).mp hx
    · rw [List.forall_mem_map]
      exact fun y hy d => hnone (List.mem_append_right _ (List.mem_cons_of_mem _ hy)) (hback y hy) d

/-- In the order of time the last value is the newest. -/
lemma IsLast.isNewest {κ : Type} [Preorder κ] {time : α → κ} {R : α → β → Prop}
    {answer : Option β} (h : IsLast R entries answer)
    (hsorted : entries.Pairwise fun a b => time a ≤ time b) : IsNewest time R entries answer := by
  cases answer with
  | none => exact h
  | some b =>
    obtain ⟨front, a, back, rfl, ha, hback⟩ := h
    refine ⟨a, List.mem_append_right _ List.mem_cons_self, ha, fun c hc d hd => ?_⟩
    rcases List.mem_append.mp hc with hc | hc
    · exact (List.pairwise_append.mp hsorted).2.2 c hc a List.mem_cons_self
    · rcases List.mem_cons.mp hc with rfl | hc
      · exact le_rfl
      · exact absurd hd (hback c hc d)

/-- One list arises from the other by inserting and deleting entries of a kind, anywhere. -/
inductive SameUpTo (Q : α → Prop) : List α → List α → Prop
  | nil : SameUpTo Q [] []
  | keep (a : α) {entries entries' : List α} (rest : SameUpTo Q entries entries') :
      SameUpTo Q (a :: entries) (a :: entries')
  | insert {a : α} (ha : Q a) {entries entries' : List α} (rest : SameUpTo Q entries entries') :
      SameUpTo Q entries (a :: entries')
  | delete {a : α} (ha : Q a) {entries entries' : List α} (rest : SameUpTo Q entries entries') :
      SameUpTo Q (a :: entries) entries'

/-- Entries without a value do not matter, wherever they stand. -/
theorem SameUpTo.lastValue_eq {Q : α → Prop} (hQ : ∀ a, Q a → f a = none)
    (h : SameUpTo Q entries entries') : lastValue f entries = lastValue f entries' := by
  induction h with
  | nil => rfl
  | keep a rest ih => rw [lastValue_cons, lastValue_cons, ih]
  | insert ha rest ih => rw [lastValue_cons, hQ _ ha, Option.or_none, ih]
  | delete ha rest ih => rw [lastValue_cons, hQ _ ha, Option.or_none, ih]

/-- With at most one value the order does not matter. -/
theorem lastValue_perm (hperm : entries.Perm entries') (h : (entries.filterMap f).length ≤ 1) :
    lastValue f entries = lastValue f entries' := by
  have hvalues : (entries.filterMap f).Perm (entries'.filterMap f) := hperm.filterMap f
  have hsame : entries.filterMap f = entries'.filterMap f := by
    match hlist : entries.filterMap f with
    | [] =>
      rw [hlist] at hvalues
      exact hvalues.nil_eq
    | [b] =>
      rw [hlist] at hvalues
      exact (List.singleton_perm.mp hvalues)
    | b :: c :: rest =>
      rw [hlist] at h
      simp at h
  rw [lastValue_eq_getLast?, lastValue_eq_getLast?, hsame]

end ListData
