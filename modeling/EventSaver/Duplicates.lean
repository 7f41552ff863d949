import EventSaver.ReadCommitted
import EventSaver.StatementOrder

/-!
# Concurrent duplicates

Any number of `save_event` transactions that run at the same time, with messages that may share
event ids and idempotency keys. No two open or committed transactions hold rows in conflict, since
an insertion waits for an open transaction that has inserted one.
-/

namespace EventSaver
open JsonData TableData EffectProgram

/-- A pool of `save_event` transactions. -/
abbrev IngestPool (ι : Type) := Pool Calls Exc Visible Writes ι

/-- The `save_event` transactions for some messages, each with its clock. -/
def saves {ι : Type} (ext : Externals) (entry : ι → Timestamp × Message) (i : ι) : Ingest Unit :=
  IngestEvent.execute ext (entry i).1 (entry i).2

/-- The event that an answered statement has inserted, if any. -/
def insertedRow : (Σ c : Call, c.Reply) → Option EventRow
  | ⟨.insertEvent row, true⟩ => some row
  | _ => none

lemma insertedRow_eq_none {e : Σ c : Call, c.Reply} (h : ¬ e.1.IsInsertion) :
    insertedRow e = none := by
  obtain ⟨c, r⟩ := e
  cases c <;> first | rfl | exact absurd trivial h

lemma reportsNew_eq (e : Σ c : Call, c.Reply) : reportsNew e = (insertedRow e).isSome := by
  obtain ⟨c, r⟩ := e
  cases c <;> try rfl
  cases r <;> rfl

lemma any_reportsNew {tr : List (Σ c : Call, c.Reply)} :
    tr.any reportsNew = true ↔ ∃ row, row ∈ tr.filterMap insertedRow := by
  simp only [List.any_eq_true, List.mem_filterMap, reportsNew_eq, Option.isSome_iff_exists]
  exact ⟨fun ⟨e, he, row, hrow⟩ => ⟨row, e, he, hrow⟩, fun ⟨row, e, he, hrow⟩ => ⟨e, he, row, hrow⟩⟩

lemma EventRow.conflicts_comm (row row' : EventRow) : row.conflicts row' = row'.conflicts row := by
  rw [Bool.eq_iff_iff]
  simp only [EventRow.conflicts, Bool.or_eq_true, Bool.and_eq_true, beq_iff_eq]
  constructor
  · rintro (hid | ⟨hsome, hkey⟩)
    · exact .inl hid.symm
    · exact .inr ⟨hkey ▸ hsome, hkey.symm⟩
  · rintro (hid | ⟨hsome, hkey⟩)
    · exact .inl hid.symm
    · exact .inr ⟨hkey ▸ hsome, hkey.symm⟩

/-- Only an insertion that finds no visible conflict adds to the events. -/
lemma Visible.execute_inserted {ext : Externals} {c : Call} {s s' : Visible} {r : c.Reply}
    (h : Visible.execute ext c s = .ok (r, s')) :
    s'.events.drop s.events.length = [(⟨c, r⟩ : Σ c : Call, c.Reply)].filterMap insertedRow ∧
      ∀ row, insertedRow ⟨c, r⟩ = some row →
        c = .insertEvent row ∧ s.events.any row.conflicts = false := by
  have hnone (hrow : insertedRow ⟨c, r⟩ = none) (hevents : s'.events = s.events) :
      s'.events.drop s.events.length = [(⟨c, r⟩ : Σ c : Call, c.Reply)].filterMap insertedRow ∧
        ∀ row, insertedRow ⟨c, r⟩ = some row →
          c = .insertEvent row ∧ s.events.any row.conflicts = false := by
    rw [List.filterMap_cons_none hrow, hevents, List.drop_length, hrow]
    exact ⟨rfl, nofun⟩
  cases c with
  | insertEvent row =>
    rw [Visible.execute] at h
    split at h
    · cases h
      exact hnone rfl rfl
    · cases h
      rename_i hnew
      refine ⟨List.drop_left, fun row' hrow => ?_⟩
      cases hrow
      exact ⟨rfl, Bool.eq_false_iff.mpr hnew⟩
  | incEventsTotal _ =>
    cases h
    exact hnone rfl rfl
  | backfillUserIdByEmail email role userId =>
    obtain ⟨email', _, h⟩ := bind_eq_ok.mp h
    cases h
    exact hnone rfl rfl
  | findByBookingUid _ =>
    cases h
    exact hnone rfl rfl
  | upsertBooking row =>
    cases h
    exact hnone rfl rfl
  | saveOrganizerHistory _ _ =>
    cases h
    exact hnone rfl rfl
  | updateClient _ _ =>
    cases h
    exact hnone rfl rfl
  | incBookingLifecycleTotal _ =>
    cases h
    exact hnone rfl rfl
  | project stmt =>
    obtain ⟨write, _, h⟩ := bind_eq_ok.mp h
    cases h
    exact hnone rfl rfl

/-- No row of the one list is in conflict with a row of the other. -/
def NoConflict (rows rows' : List EventRow) : Prop :=
  ∀ row ∈ rows, ∀ row' ∈ rows', row.conflicts row' = false

lemma NoConflict.symm {rows rows' : List EventRow} (h : NoConflict rows rows') :
    NoConflict rows' rows := by
  intro row' hrow' row hrow
  rw [EventRow.conflicts_comm]
  exact h row hrow row' hrow'

section Invariant

variable {ext : Externals} {ι : Type} {p q : IngestPool ι}

/-- What transactions have inserted: a committed one has published its rows, and the rows of two
that are not rolled back are not in conflict. -/
structure HoldApart (p : IngestPool ι) : Prop where
  own : ∀ i, (p.tx i).own.events = (p.tx i).trace.filterMap insertedRow
  published : ∀ i, p.Committed i → (p.tx i).own.events ⊆ p.shared.events
  apart : ∀ i j, i ≠ j → (p.tx i).status ≠ .aborted → (p.tx j).status ≠ .aborted →
    NoConflict (p.tx i).own.events (p.tx j).own.events

/-- A new row is in conflict with no row of a transaction that is not rolled back. -/
lemma HoldApart.inserted (h : HoldApart p) {i j : ι} {c : Call} {r : c.Reply} {s : Visible}
    (free : ∀ j, j ≠ i → p.Running j →
      ¬ Writes.Blocks ext c (p.view (readCommitted ext) i) (p.tx j).own)
    (answer : Visible.execute ext c (p.view (readCommitted ext) i) = .ok (r, s)) (hj : j ≠ i)
    (hstatus : (p.tx j).status ≠ .aborted) :
    NoConflict ([(⟨c, r⟩ : Σ c : Call, c.Reply)].filterMap insertedRow) (p.tx j).own.events := by
  intro row hrow row' hrow'
  obtain ⟨e, he, hinserted⟩ := List.mem_filterMap.mp hrow
  obtain rfl := List.mem_singleton.mp he
  obtain ⟨rfl, hnew⟩ := (Visible.execute_inserted answer).2 row hinserted
  cases hs : (p.tx j).status with
  | running =>
    have hfree : ¬ (¬ (p.view (readCommitted ext) i).events.any row.conflicts = true ∧
      (p.tx j).own.events.any row.conflicts = true) := free j hj hs
    rw [hnew] at hfree
    by_contra hconflict
    exact hfree ⟨Bool.false_ne_true,
      List.any_eq_true.mpr ⟨row', hrow', eq_true_of_ne_false hconflict⟩⟩
  | committed =>
    have hvisible : row' ∈ (p.view (readCommitted ext) i).events :=
      List.mem_append_left _ (h.published j hs hrow')
    exact Bool.eq_false_iff.mpr (List.any_eq_false.mp hnew row' hvisible)
  | aborted => exact absurd hs hstatus

/-- The end of a transaction leaves what every transaction has inserted as it is. -/
lemma HoldApart.end_of (h : HoldApart p)
    (htx : ∀ j, (q.tx j).own = (p.tx j).own ∧ (q.tx j).trace = (p.tx j).trace ∧
      ((q.tx j).status ≠ .aborted → (p.tx j).status ≠ .aborted))
    (hpublished : ∀ j, q.Committed j → (p.tx j).own.events ⊆ q.shared.events) : HoldApart q := by
  refine ⟨fun j => ?_, fun j hcommitted => ?_, fun j k hjk hstatusj hstatusk => ?_⟩
  · rw [(htx j).1, (htx j).2.1]
    exact h.own j
  · rw [(htx j).1]
    exact hpublished j hcommitted
  · rw [(htx j).1, (htx k).1]
    exact h.apart j k hjk ((htx j).2.2 hstatusj) ((htx k).2.2 hstatusk)

lemma HoldApart.step [DecidableEq ι] (h : HoldApart p) {a : Action Calls ι}
    (hstep : p.Step (readCommitted ext) a q) : HoldApart q := by
  have hother (j : ι) (hj : j ≠ a.tx) : q.tx j = p.tx j := hstep.tx_of_ne hj
  cases hstep with
  | @call i c next r s running rest free answer =>
    have hinserted := (Visible.execute_inserted answer).1
    have hown : (Writes.after ext (p.tx i).own c (p.view (readCommitted ext) i) s).events =
        (p.tx i).own.events ++ [(⟨c, r⟩ : Σ c : Call, c.Reply)].filterMap insertedRow := by
      rw [← hinserted]
      rfl
    have hapart (j : ι) (hj : j ≠ i) (hstatus : (p.tx j).status ≠ .aborted) :
        NoConflict ((p.tx i).own.events ++
          [(⟨c, r⟩ : Σ c : Call, c.Reply)].filterMap insertedRow) (p.tx j).own.events := by
      intro row hrow
      rcases List.mem_append.mp hrow with hrow | hrow
      · refine h.apart i j hj.symm ?_ hstatus row hrow
        rw [running]
        nofun
      · exact h.inserted free answer hj hstatus row hrow
    refine ⟨fun j => ?_, fun j hcommitted => ?_, fun j k hjk hstatusj hstatusk => ?_⟩
    · by_cases hj : j = i
      · subst hj
        rw [Pool.set_tx_self, List.filterMap_append, ← h.own]
        exact hown
      · rw [hother j hj]
        exact h.own j
    · by_cases hj : j = i
      · rw [Pool.Committed, hj, Pool.set_tx_self] at hcommitted
        cases hcommitted
      · rw [Pool.Committed, hother j hj] at hcommitted
        rw [hother j hj]
        exact h.published j hcommitted
    · by_cases hj : j = i
      · subst hj
        rw [hother k hjk.symm] at hstatusk ⊢
        rw [Pool.set_tx_self]
        exact hown ▸ hapart k hjk.symm hstatusk
      · rw [hother j hj] at hstatusj ⊢
        by_cases hk : k = i
        · subst hk
          rw [Pool.set_tx_self]
          exact (hown ▸ hapart j hj hstatusj).symm
        · rw [hother k hk] at hstatusk ⊢
          exact h.apart j k hjk hstatusj hstatusk
  | @commit i running rest =>
    have hshared : p.shared.events ⊆ (p.view (readCommitted ext) i).events :=
      List.subset_append_left _ _
    refine h.end_of (fun j => ?_) (fun j hcommitted => ?_)
    · by_cases hj : j = i
      · subst hj
        rw [Pool.set_tx_self, running]
        exact ⟨rfl, rfl, fun _ => nofun⟩
      · rw [hother j hj]
        exact ⟨rfl, rfl, id⟩
    · by_cases hj : j = i
      · subst hj
        exact List.subset_append_right _ _
      · rw [Pool.Committed, hother j hj] at hcommitted
        exact List.Subset.trans (h.published j hcommitted) hshared
  | @abort i running =>
    refine h.end_of (fun j => ?_) (fun j hcommitted => ?_)
    · by_cases hj : j = i
      · subst hj
        rw [Pool.set_tx_self]
        exact ⟨rfl, rfl, fun hstatus => absurd rfl hstatus⟩
      · rw [hother j hj]
        exact ⟨rfl, rfl, id⟩
    · by_cases hj : j = i
      · rw [Pool.Committed, hj, Pool.set_tx_self] at hcommitted
        cases hcommitted
      · rw [Pool.Committed, hother j hj] at hcommitted
        exact h.published j hcommitted

lemma holdApart_of_run [DecidableEq ι] {ok : IngestPool ι → Action Calls ι → Prop} {s : Visible}
    {program : ι → Ingest Unit}
    (h : Pool.Run (readCommitted ext) ok (Pool.start (readCommitted ext) s program) p) :
    HoldApart p := by
  have hstart : HoldApart (Pool.start (readCommitted ext) s program) :=
    ⟨fun _ => rfl, fun _ hi => (nomatch hi), fun _ _ _ _ _ _ hrow => (nomatch hrow)⟩
  exact Pool.Run.invariant h hstart fun hp _ hstep => hp.step hstep

end Invariant

section Saves

variable {ext : Externals} {ι : Type} {entry : ι → Timestamp × Message} {p : IngestPool ι}

/-- The transaction has committed, and its insertion has reported a new row. -/
def Stores (p : IngestPool ι) (i : ι) : Prop :=
  p.Committed i ∧ (p.tx i).trace.any reportsNew = true

lemma row_conflicts {now now' : Timestamp} {m m' : Message} {event event' : ParsedEvent}
    (h : EventParser.parse ext now m = .ok event) (h' : EventParser.parse ext now' m' = .ok event')
    (hshares : m.SharesKey m') :
    (EventRepository.row event).conflicts (EventRepository.row event') = true := by
  obtain ⟨hid, hkey⟩ := EventParser.parse_keys ext h
  obtain ⟨hid', hkey'⟩ := EventParser.parse_keys ext h'
  rw [EventRow.conflicts_comm]
  simp only [EventRow.conflicts, EventRepository.row, hid, hid', hkey, hkey', Bool.or_eq_true,
    Bool.and_eq_true, beq_iff_eq]
  rcases hshares with hid | ⟨hsome, hkey⟩
  · exact .inl hid
  · exact .inr ⟨hkey ▸ hsome, hkey⟩

/-- What a transaction that follows the program of a message has inserted. -/
lemma inserted_of_follows {i : ι}
    (h : Pool.Follows (readCommitted ext) (saves ext entry i) (p.tx i)) {row : EventRow}
    (hrow : row ∈ (p.tx i).trace.filterMap insertedRow) :
    ∃ event, EventParser.parse ext (entry i).1 (entry i).2 = .ok event ∧
      row = EventRepository.row event := by
  rcases execute_path h.path with ⟨htrace, _⟩ | ⟨event, isInserted, tail, hparse, htrace, hpath⟩
  · rw [htrace] at hrow
    cases hrow
  · refine ⟨event, hparse, ?_⟩
    have htail := (hpath.every (gated_every_not_isInsertion isInserted)).1
    obtain ⟨e, he, hinserted⟩ := List.mem_filterMap.mp hrow
    rw [htrace, List.mem_cons] at he
    rcases he with rfl | he
    · cases isInserted <;> cases hinserted
      rfl
    · rw [insertedRow_eq_none (htail e he)] at hinserted
      cases hinserted

/-- Of two transactions that share a key one at most stores its event. -/
lemma not_both_store (hapart : HoldApart p)
    (hfollows : ∀ i, Pool.Follows (readCommitted ext) (saves ext entry i) (p.tx i)) {i j : ι}
    (hij : i ≠ j) (hshares : (entry i).2.SharesKey (entry j).2) : ¬ (Stores p i ∧ Stores p j) := by
  rintro ⟨⟨hi, hnewi⟩, hj, hnewj⟩
  obtain ⟨row, hrow⟩ := any_reportsNew.mp hnewi
  obtain ⟨row', hrow'⟩ := any_reportsNew.mp hnewj
  obtain ⟨event, hparse, rfl⟩ := inserted_of_follows (hfollows i) hrow
  obtain ⟨event', hparse', rfl⟩ := inserted_of_follows (hfollows j) hrow'
  rw [← hapart.own] at hrow hrow'
  have hconflict := row_conflicts hparse hparse' hshares
  have hi' : (p.tx i).status ≠ .aborted := by rw [hi]; nofun
  have hj' : (p.tx j).status ≠ .aborted := by rw [hj]; nofun
  rw [hapart.apart i j hij hi' hj' _ hrow _ hrow'] at hconflict
  cases hconflict

/-- A transaction that commits without having stored its event has made one call. -/
lemma trace_of_not_stores {i : ι}
    (hfollows : Pool.Follows (readCommitted ext) (saves ext entry i) (p.tx i))
    (hcommitted : p.Committed i) (hnot : ¬ Stores p i) :
    ∃ row, (p.tx i).trace = [⟨.insertEvent row, false⟩] := by
  have hrest := hfollows.committed hcommitted
  rcases execute_path hfollows.path with
    ⟨_, hstart⟩ | ⟨event, isInserted, tail, hparse, htrace, hpath⟩
  · rw [hrest] at hstart
    cases hparse : EventParser.parse ext (entry i).1 (entry i).2 with
    | error e =>
      rw [execute_of_not_parse hparse] at hstart
      cases hstart
    | ok event =>
      rw [execute_of_parse hparse] at hstart
      cases hstart
  · cases isInserted with
    | true =>
      refine absurd ⟨hcommitted, ?_⟩ hnot
      rw [htrace]
      rfl
    | false =>
      rw [hpath.of_pure.1] at htrace
      exact ⟨_, htrace⟩

variable [DecidableEq ι]

/-- An insertion that finds no conflict and that no open transaction holds up is answered that the
row is new. -/
lemma exists_insert_step {j : ι} {row : EventRow} {next : Bool → Ingest Unit}
    (hrunning : p.Running j) (hrest : (p.tx j).rest = .call (S := Calls) (.insertEvent row) next)
    (hnew : (p.view (readCommitted ext) j).events.any row.conflicts = false)
    (hfree : ∀ k, ¬ p.WaitsFor (readCommitted ext) j k) :
    ∃ q, p.Step (readCommitted ext) (.call j (.insertEvent row)) q ∧
      (q.tx j).trace = (p.tx j).trace ++ [⟨.insertEvent row, true⟩] := by
  have hanswer : Visible.execute ext (.insertEvent row) (p.view (readCommitted ext) j) =
      .ok (true, { p.view (readCommitted ext) j with
        events := (p.view (readCommitted ext) j).events ++ [row] }) := by
    rw [Visible.execute, hnew]
    rfl
  refine ⟨_, .call hrunning hrest (fun k hk hkr hwaits => ?_) hanswer, ?_⟩
  · exact hfree k ⟨hrunning, hkr, hk, _, _, hrest, hwaits⟩
  · rw [Pool.set_tx_self]

/-- The program of a message on a state without a conflict starts with an insertion that reports a
new row. -/
lemma trace_execute_new {now : Timestamp} {m : Message} {event : ParsedEvent} {s : Visible}
    (hparse : EventParser.parse ext now m = .ok event)
    (hnew : s.events.any (EventRepository.row event).conflicts = false) :
    ((IngestEvent.execute ext now m).trace (Visible.execute ext) s).any reportsNew = true := by
  have hanswer : Visible.execute ext (.insertEvent (EventRepository.row event)) s =
      .ok (true, { s with events := s.events ++ [EventRepository.row event] }) := by
    rw [Visible.execute, hnew]
    rfl
  rw [execute_of_parse hparse, Program.trace, hanswer]
  rfl

/-- An insertion that waits can go on once the transaction that holds it up is rolled back. -/
lemma exists_stores_of_abort [Finite ι]
    (hfollows : ∀ i, Pool.Follows (readCommitted ext) (saves ext entry i) (p.tx i)) {i j : ι}
    {q : IngestPool ι} (hwaits : p.WaitsFor (readCommitted ext) j i) (hfresh : (p.tx j).trace = [])
    (habort : p.Step (readCommitted ext) (.abort i) q) :
    ((∀ k, ¬ q.WaitsFor (readCommitted ext) j k) → ∃ row r,
      q.Step (readCommitted ext) (.call j (.insertEvent row)) r ∧
        (r.tx j).trace = [⟨.insertEvent row, true⟩]) ∧
    ∃ r, Pool.Steps (readCommitted ext) q r ∧
      (r.tx j).trace = (saves ext entry j).trace (Visible.execute ext) q.shared ∧
      (r.tx j).trace.any reportsNew = true ∧
      (((saves ext entry j).run (Visible.execute ext) q.shared).1 = .ok () →
        Stores r j ∧ r.shared = ((saves ext entry j).run (Visible.execute ext) q.shared).2) := by
  obtain ⟨hjr, _, hij, c, next, hrest, hblocks⟩ := hwaits
  obtain ⟨htx, hshared⟩ : q.tx j = p.tx j ∧ q.shared = p.shared := by
    refine ⟨habort.tx_of_ne hij.symm, ?_⟩
    cases habort
    rfl
  have hqr : q.Running j := by rw [Pool.Running, htx, hjr]
  have hown : (q.tx j).own = (readCommitted ext).start := by rw [htx, (hfollows j).fresh hfresh]
  have hview : q.view (readCommitted ext) j = q.shared := by
    rw [Pool.view, hown, (readCommitted ext).view_start]
  have hprogram : (p.tx j).rest = saves ext entry j := by
    rcases execute_path (hfollows j).path with ⟨_, h⟩ | ⟨_, _, _, _, h, _⟩
    · exact h
    · rw [hfresh] at h
      cases h
  cases hparse : EventParser.parse ext (entry j).1 (entry j).2 with
  | error e =>
    rw [hprogram, saves, execute_of_not_parse hparse] at hrest
    cases hrest
  | ok event =>
    have hsaves : saves ext entry j = _ := execute_of_parse hparse
    have hcall := hrest
    rw [hprogram, hsaves] at hcall
    obtain ⟨rfl, _⟩ := Program.call.inj hcall
    have hnew : q.shared.events.any (EventRepository.row event).conflicts = false := by
      rw [← hview, Pool.view, htx, hshared]
      exact Bool.eq_false_iff.mpr hblocks.1
    refine ⟨fun hfree => ?_, ?_⟩
    · obtain ⟨r, hstep, htrace⟩ :=
        exists_insert_step hqr (htx ▸ hrest) (hview.symm ▸ hnew) hfree
      rw [htx, hfresh] at htrace
      exact ⟨_, r, hstep, htrace⟩
    · obtain ⟨q', hsteps, hshared', htx', halone⟩ := Pool.exists_alone (I := readCommitted ext) q j
      have hview' : q'.view (readCommitted ext) j = q.shared := by
        rw [Pool.view, htx', hshared', hown, (readCommitted ext).view_start]
      have hrunning' : q'.Running j := by rw [Pool.Running, htx', hqr]
      obtain ⟨r, hsteps', htrace, hcommit⟩ := Pool.exists_run_alone hrunning' halone
      rw [hview', htx', htx, hfresh, hprogram] at htrace
      rw [hview', htx', htx, hprogram] at hcommit
      have hreports : (r.tx j).trace.any reportsNew = true := by
        rw [htrace]
        exact trace_execute_new hparse hnew
      exact ⟨r, hsteps.trans hsteps', htrace, hreports, fun hok =>
        ⟨⟨(hcommit hok).1, hreports⟩, (hcommit hok).2⟩⟩

/-- Duplicates that run at the same time take effect once. Of transactions that share a key one at
most stores its event; every other one that commits has made no call but its insertion. When a
transaction that holds up the insertion of another one is rolled back, the insertion can go on:
at once if nobody else holds it up, and in any case there is a continuation in which the other
transaction runs as it would alone on what is committed, from an insertion that reports a new row
to its commit, unless its program raises. -/
theorem concurrent_duplicates [Finite ι] {s : Visible}
    (run : Pool.Steps (readCommitted ext) (Pool.start (readCommitted ext) s (saves ext entry)) p) :
    (∀ i j, i ≠ j → (entry i).2.SharesKey (entry j).2 → ¬ (Stores p i ∧ Stores p j)) ∧
    (∀ i, p.Committed i → ¬ Stores p i →
      ∃ row, (p.tx i).trace = [⟨.insertEvent row, false⟩]) ∧
    ∀ i j q, p.WaitsFor (readCommitted ext) j i → (p.tx j).trace = [] →
      p.Step (readCommitted ext) (.abort i) q →
      ((∀ k, ¬ q.WaitsFor (readCommitted ext) j k) → ∃ row r,
        q.Step (readCommitted ext) (.call j (.insertEvent row)) r ∧
          (r.tx j).trace = [⟨.insertEvent row, true⟩]) ∧
      ∃ r, Pool.Steps (readCommitted ext) q r ∧
        (r.tx j).trace = (saves ext entry j).trace (Visible.execute ext) q.shared ∧
        (r.tx j).trace.any reportsNew = true ∧
        (((saves ext entry j).run (Visible.execute ext) q.shared).1 = .ok () →
          Stores r j ∧
            r.shared = ((saves ext entry j).run (Visible.execute ext) q.shared).2) := by
  have hfollows := run.follows
  refine ⟨fun i j hij hshares => ?_, fun i hcommitted hnot => ?_,
    fun i j q hwaits hfresh habort => ?_⟩
  · exact not_both_store (holdApart_of_run run) hfollows hij hshares
  · exact trace_of_not_stores (hfollows i) hcommitted hnot
  · exact exists_stores_of_abort hfollows hwaits hfresh habort

end Saves

/-- The same event, delivered to two consumers. -/
def deliveredTwice (_ : Bool) : Timestamp × Message :=
  (0, .sample BOOKING_LIFECYCLE_SAVER_QUEUE "1" "b" .bookingCreated 1 (.obj []))

/-- When the consumer that has inserted the event fails, the other one stores it. -/
theorem concurrent_duplicates_deliveredTwice :
    ∃ p q r : IngestPool Bool, (p.tx true).trace.any reportsNew = true ∧
      p.WaitsFor (readCommitted .sample) false true ∧
      p.Step (readCommitted .sample) (.abort true) q ∧ Pool.Steps (readCommitted .sample) q r ∧
      Stores r false := by
  obtain ⟨event, hparse⟩ : ∃ event, EventParser.parse .sample 0
      (.sample BOOKING_LIFECYCLE_SAVER_QUEUE "1" "b" .bookingCreated 1 (.obj [])) = .ok event :=
    ⟨_, rfl⟩
  have hsaves (i : Bool) : saves .sample deliveredTwice i = _ := execute_of_parse hparse
  let start : IngestPool Bool := Pool.start (readCommitted .sample) Db.empty.visible
    (saves .sample deliveredTwice)
  have hanswer : Visible.execute .sample (.insertEvent (EventRepository.row event))
      (start.view (readCommitted .sample) true) = .ok (true, _) := rfl
  have hinsert := Pool.Step.call (I := readCommitted .sample) (p := start) rfl (hsaves true)
    (fun j _ _ hblocks => Bool.false_ne_true hblocks.2) hanswer
  generalize hp : start.set true _ _ = p at hinsert
  have hfalse : p.tx false = start.tx false := hinsert.tx_of_ne Bool.false_ne_true
  have htrue : p.Running true ∧ (p.tx true).own.events = [EventRepository.row event] ∧
      (p.tx true).trace = [⟨.insertEvent (EventRepository.row event), true⟩] := by
    rw [Pool.Running, ← hp, Pool.set_tx_self]
    exact ⟨rfl, rfl, rfl⟩
  have hshared : p.shared = Db.empty.visible := by
    rw [← hp]
    rfl
  have hwaits : p.WaitsFor (readCommitted .sample) false true := by
    refine ⟨by rw [Pool.Running, hfalse]; rfl, htrue.1, by decide, .insertEvent (EventRepository.row event),
      _, by rw [hfalse]; exact hsaves false, ?_⟩
    rw [Pool.view, hfalse, hshared]
    refine ⟨Bool.false_ne_true, ?_⟩
    rw [htrue.2.1]
    simp [EventRow.conflicts]
  have habort := Pool.Step.abort (I := readCommitted .sample) htrue.1
  obtain ⟨_, r, hsteps, _, _, hcommit⟩ := (concurrent_duplicates hinsert.steps).2.2 true false _
    hwaits (by rw [hfalse]; rfl) habort
  refine ⟨p, _, r, by rw [htrue.2.2]; rfl, hwaits, habort, hsteps, (hcommit ?_).1⟩
  rw [Pool.set_shared, hshared]
  rfl

end EventSaver
