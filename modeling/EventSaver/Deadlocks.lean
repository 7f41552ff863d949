import EventSaver.BackfillPaths
import EventSaver.ConcurrentBackfills
import Mathlib.Data.Prod.Lex

/-!
# Deadlocks

`save_event` transactions that write one bookings row and then one table after the other, and cycles
of the periodic backfill, which fill rows in the order of their ids and keep them until they commit.
They never hold up one another in a circle. Left out are `user.synced` and read messages, whose
UPDATEs take many rows in an order of the database's choice.
-/

namespace EventSaver
open JsonData TableData EffectProgram

/-- The calls that write no bookings row but the one of a given id. -/
def Call.WritesOnly (ref : Option Nat) : Call → Prop
  | .updateClient id _ => ref = some id
  | .insertEvent _ => False
  | .upsertBooking _ => False
  | .backfillUserIdByEmail _ _ _ => False
  | _ => True

/-- A program that upserts at most one bookings row and then writes only that row. -/
inductive WritesOnce : Ingest Unit → Prop
  | pure : WritesOnce (.pure ())
  | throw (e : Exc) : WritesOnce (.throw e)
  | upsert {row : Booking} {next : Option Nat → Ingest Unit}
      (h : ∀ ref, (next ref).Every (Call.WritesOnly ref)) :
      WritesOnce (.call (S := Calls) (.upsertBooking row) next)
  | other {c : Call} {next : c.Reply → Ingest Unit} (hc : c.WritesOnly none)
      (h : ∀ r, WritesOnce (next r)) : WritesOnce (.call (S := Calls) c next)

section Programs

variable {ext : Externals}

lemma Call.WritesOnly.of_none {c : Call} (h : c.WritesOnly none) (ref : Option Nat) :
    c.WritesOnly ref := by
  cases c <;> first | exact h | cases h

lemma Call.WritesOnly.writes_none {c : Call} (h : c.WritesOnly none) {s : Visible} {uid : String} :
    c.writes ext s uid = false := by
  cases c <;> first | rfl | cases h

lemma Call.Projects.writesOnly {c : Call} (h : c.Projects) : c.WritesOnly none := by
  cases c <;> trivial

lemma writesOnce_of_every {p : Ingest Unit} (h : p.Every (Call.WritesOnly none)) :
    WritesOnce p := by
  induction p with
  | pure a => exact .pure
  | throw e => exact .throw e
  | call c next ih => exact .other h.1 fun r => ih r (h.2 r)

/-- The upsert of a booking, its history and its client. -/
lemma writesOnce_upsertBooking (event : ParsedEvent) (uid : String)
    (organizer client : Option Uuid) {next : Nat × Option Uuid → Ingest Unit}
    (hnext : ∀ a, (next a).Every Call.Projects) :
    WritesOnce (IngestEvent.upsertBooking ext event uid organizer client >>= next) := by
  unfold IngestEvent.upsertBooking
  cases BookingDataExtractor.extract ext uid event.eventType event.payload with
  | error e => exact .throw e
  | ok data =>
    simp only [Program.lift_ok, Program.bind_pure', BookingRepository.upsert, bind_assoc]
    refine .upsert fun ref => ?_
    cases ref with
    | none => trivial
    | some ref =>
      have hhistory :
          (IngestEvent.saveOrganizerHistory event ref organizer).Every (Call.WritesOnly (some ref)) := by
        unfold IngestEvent.saveOrganizerHistory
        split
        · cases organizer with
          | none => trivial
          | some u => exact ⟨trivial, fun _ => trivial⟩
        · trivial
      have hreassign : (IngestEvent.reassignClient ext event ref client).Every
          (Call.WritesOnly (some ref)) := by
        unfold IngestEvent.reassignClient
        split
        · refine (Program.every_lift _).bind fun newClient => ?_
          cases newClient with
          | none => trivial
          | some u => exact ⟨rfl, fun _ => trivial⟩
        · trivial
      refine hhistory.bind fun _ => hreassign.bind fun _ => ?_
      exact (hnext _).mono fun c hc => hc.writesOnly.of_none (some ref)

/-- A message that announces no user writes one bookings row. -/
lemma writesOnce_gated {m : Message} {event : ParsedEvent}
    (htype : event.eventType ≠ EventType.userSynced.value) (isInserted : Bool) :
    WritesOnce (IngestEvent.gated ext m.queueName event isInserted) := by
  have hproject (ref : Nat) (organizer client : Option Uuid) :=
    every_executeProjections ext ⟨event, ref, organizer, client, m.queueName⟩
  cases isInserted with
  | false => exact .pure
  | true =>
    refine .other trivial fun _ => ?_
    unfold IngestEvent.process
    rw [if_neg htype]
    cases event.bookingId with
    | none => exact .pure
    | some uid =>
      by_cases hempty : uid = ""
      · simp only [hempty, if_true]
        exact .pure
      · simp only [hempty, if_false]
        unfold IngestEvent.processBooking
        cases ParticipantExtractor.extract ext event.payload with
        | error e => exact .throw e
        | ok ids =>
          obtain ⟨organizer, client⟩ := ids
          have hupsert := @writesOnce_upsertBooking ext event uid organizer client _
            fun a => hproject a.1 organizer a.2
          simp only [Program.lift_ok, Program.bind_pure', BookingRepository.getOrNone]
          by_cases hq : m.queueName = BOOKING_LIFECYCLE_SAVER_QUEUE
          · rw [if_pos hq]
            exact hupsert
          · rw [if_neg hq]
            refine .other trivial fun known => ?_
            cases known with
            | none => exact hupsert
            | some ref =>
              exact writesOnce_of_every
                ((hproject ref organizer client).mono fun c hc => hc.writesOnly)

end Programs

/-- The id of the row that an UPDATE of the periodic backfill fills. -/
def CycleCall.fillId : CycleCall → Option Nat
  | .fillSlot id _ _ => some id
  | _ => none

/-- The candidates come in the order of their ids. -/
def CycleCall.InOrder : (c : CycleCall) → c.Reply → Prop
  | .selectCandidates _, rows => List.Pairwise (fun a b : Candidate => a.id ≤ b.id) rows
  | _, _ => True

section Cycles

open UserIdBackfillService

variable {row : Candidate} {role : RecipientRole} {tally : Tally}
  {slots : List (Candidate × RecipientRole)}

lemma every_resolve (email : String) :
    (resolve email role tally).Every fun c : CycleCall => c.fillId = none := by
  unfold resolve
  cases tally.cache.lookup (email, role) with
  | some userId => trivial
  | none =>
    refine ⟨rfl, fun answer => ?_⟩
    cases answer <;> trivial

/-- A slot asks for its own row, once and at its end. -/
lemma backfillSlot_fills :
    (backfillSlot row role tally).Every (fun c : CycleCall => ∀ k, c.fillId = some k → k = row.id) ∧
      (backfillSlot row role tally).Ascends CycleCall.InOrder (· ≤ ·) CycleCall.fillId := by
  have hnone {c : CycleCall} (hc : c.fillId = none) : ∀ k, c.fillId = some k → k = row.id := by
    intro k hk
    rw [hc] at hk
    cases hk
  unfold backfillSlot
  rw [Program.perform_bind]
  refine ⟨⟨hnone rfl, fun email => ?_⟩, Program.Ascends.none_bind (p := .call _ .pure)
    ⟨rfl, fun _ => trivial⟩ fun email => ?_⟩
  · cases email with
    | none => trivial
    | some email =>
      refine ((every_resolve email).mono fun c hc => hnone hc).bind fun answer => ?_
      obtain ⟨tally', (_ | userId) | _⟩ := answer
      · trivial
      · refine ⟨fun k hk => ?_, fun _ => trivial⟩
        cases hk
        rfl
      · trivial
  · cases email with
    | none => trivial
    | some email =>
      refine .none_bind (every_resolve email) fun answer => ?_
      obtain ⟨tally', (_ | userId) | _⟩ := answer
      · trivial
      · exact fun _ _ => ⟨fun _ _ => trivial, trivial⟩
      · trivial

lemma backfillSlots_above {k : Nat} (h : ∀ slot ∈ slots, k ≤ slot.1.id) :
    (backfillSlots slots tally).Above CycleCall.InOrder (· ≤ ·) CycleCall.fillId k := by
  induction slots generalizing tally with
  | nil => trivial
  | cons slot rest ih =>
    obtain ⟨row, role⟩ := slot
    obtain ⟨hrow, hrest⟩ := List.forall_mem_cons.mp h
    refine Program.Above.bind ?_ fun answer => ?_
    · refine (backfillSlot_fills.1.mono fun c hc k' hk' => ?_).above
      rw [hc k' hk']
      exact hrow
    · obtain ⟨tally', _ | _⟩ := answer
      · exact ih hrest
      · trivial

/-- The loop fills its rows in the order of its slots. -/
lemma backfillSlots_ascends (h : slots.Pairwise fun a b => a.1.id ≤ b.1.id) :
    (backfillSlots slots tally).Ascends CycleCall.InOrder (· ≤ ·) CycleCall.fillId := by
  induction slots generalizing tally with
  | nil => trivial
  | cons slot rest ih =>
    obtain ⟨row, role⟩ := slot
    obtain ⟨hrow, hrest⟩ := List.pairwise_cons.mp h
    refine Program.Ascends.bind (k := row.id) backfillSlot_fills.2
      (backfillSlot_fills.1.mono fun c hc k' hk' l hl => hc k' hk' ▸ hl) (fun answer => ?_)
      fun answer => ?_
    · obtain ⟨tally', _ | _⟩ := answer
      · exact ih hrest
      · trivial
    · obtain ⟨tally', _ | _⟩ := answer
      · exact backfillSlots_above hrow
      · trivial

/-- A cycle fills rows in the order of their ids. -/
theorem runOnceProgram_ascends (batchSize : Nat) :
    (runOnceProgram batchSize).Ascends CycleCall.InOrder (· ≤ ·) CycleCall.fillId := by
  have hslots {rows : List Candidate} (h : rows.Pairwise fun a b => a.id ≤ b.id) :
      (slots rows).Pairwise fun a b => a.1.id ≤ b.1.id := by
    refine List.pairwise_flatMap.mpr ⟨fun row _ => ?_, h.imp fun {a b} hab x hx y hy => ?_⟩
    · exact List.pairwise_map.mpr (List.pairwise_of_forall fun _ _ => le_rfl)
    · obtain ⟨_, _, rfl⟩ := List.mem_map.mp hx
      obtain ⟨_, _, rfl⟩ := List.mem_map.mp hy
      exact hab
  unfold runOnceProgram
  rw [Program.perform_bind]
  intro rows hrows
  refine ⟨fun k hk => (by cases hk), ?_⟩
  exact (backfillSlots_ascends (hslots hrows)).bind_none fun _ => trivial

end Cycles

/-- What the calls of the service ask for: the row that an UPDATE of a cycle fills. -/
def fillId : ServiceCalls.Call → Option Nat
  | .inl _ => none
  | .inr c => c.fillId

def OfCycle : ServiceCalls.Call → Prop
  | .inl _ => False
  | .inr _ => True

def InOrder : (c : ServiceCalls.Call) → ServiceCalls.Reply c → Prop
  | .inl _, _ => True
  | .inr c, r => c.InOrder r

section Versions

variable {ι : Type}

/-- A version of a bookings row: the committed one, or the one of an open transaction. -/
def Version (p : ServicePool ι) (uid : String) (b : BookingRow) : Prop :=
  p.shared.1.bookings uid = some b ∨ ∃ i, p.Running i ∧ (p.tx i).own.bookings uid = some b

/-- The ids of all versions are below the sequence, and an id belongs to one booking. -/
structure DistinctIds (p : ServicePool ι) : Prop where
  lt : ∀ uid b, Version p uid b → b.id < p.shared.1.bookingsSeq
  uid_eq : ∀ uid uid' b b', Version p uid b → Version p uid' b' → b.id = b'.id → uid = uid'

variable {ext : Externals} {resolver : Nat → String → RecipientRole → Except Exc Resolution}
  {candidates : Visible → Nat → List Candidate} {p q : ServicePool ι}

/-- The rows after a statement have the ids of the rows before, but for the row of an upsert, which
may have the next id of the sequence. -/
lemma Visible.execute_ids {c : Call} {r : c.Reply} {s s' : Visible}
    (h : Visible.execute ext c s = .ok (r, s')) :
    s.bookingsSeq ≤ s'.bookingsSeq ∧ ∀ uid b', s'.bookings uid = some b' →
      (∃ b, s.bookings uid = some b ∧ b.id = b'.id) ∨
        b'.id = s.bookingsSeq ∧ s.bookingsSeq < s'.bookingsSeq ∧
          ∃ row : Booking, c = .upsertBooking row ∧ row.bookingUid = uid := by
  have hsame {bookings : String → Option BookingRow} {f : BookingRow → BookingRow}
      (hf : ∀ b, (f b).id = b.id) (uid : String) (b' : BookingRow)
      (hb' : (bookings uid).map f = some b') : ∃ b, bookings uid = some b ∧ b.id = b'.id := by
    obtain ⟨b, hb, rfl⟩ := Option.map_eq_some_iff.mp hb'
    exact ⟨b, hb, (hf b).symm⟩
  cases c with
  | insertEvent row =>
    rw [Visible.execute] at h
    split at h <;> cases h <;> exact ⟨le_rfl, fun uid b' hb' => .inl ⟨b', hb', rfl⟩⟩
  | upsertBooking row =>
    cases h
    refine ⟨Nat.le_succ _, fun uid b' hb' => ?_⟩
    dsimp only at hb'
    by_cases huid : uid = row.bookingUid
    · subst huid
      rw [Function.update_self] at hb'
      obtain rfl := Option.some.inj hb'
      cases hfound : s.bookings row.bookingUid with
      | none => exact .inr ⟨rfl, Nat.lt_succ_self _, row, rfl, rfl⟩
      | some old => exact .inl ⟨old, rfl, rfl⟩
    · rw [Function.update_of_ne huid] at hb'
      exact .inl ⟨b', hb', rfl⟩
  | backfillUserIdByEmail email role userId =>
    obtain ⟨email', _, h⟩ := bind_eq_ok.mp h
    cases h
    refine ⟨le_rfl, fun uid b' hb' => .inl (hsame (fun b => ?_) uid b' hb')⟩
    unfold BookingRow.backfill
    split <;> rfl
  | updateClient ref userId =>
    cases h
    refine ⟨le_rfl, fun uid b' hb' => .inl (hsame (fun b => ?_) uid b' hb')⟩
    unfold BookingRow.updateId
    split <;> rfl
  | project stmt =>
    obtain ⟨_, _, h⟩ := bind_eq_ok.mp h
    cases h
    exact ⟨le_rfl, fun uid b' hb' => .inl ⟨b', hb', rfl⟩⟩
  | _ =>
    cases h
    exact ⟨le_rfl, fun uid b' hb' => .inl ⟨b', hb', rfl⟩⟩

lemma Visible.executeService_ids {c : ServiceCalls.Call} {r : ServiceCalls.Reply c}
    {s s' : Visible} {n n' : Nat}
    (h : Visible.executeService ext resolver candidates c (s, n) = .ok (r, (s', n'))) :
    s.bookingsSeq ≤ s'.bookingsSeq ∧ ∀ uid b', s'.bookings uid = some b' →
      (∃ b, s.bookings uid = some b ∧ b.id = b'.id) ∨
        b'.id = s.bookingsSeq ∧ s.bookingsSeq < s'.bookingsSeq ∧
          ∃ row : Booking, c = .inl (.upsertBooking row) ∧ row.bookingUid = uid := by
  cases c with
  | inl c =>
    obtain ⟨⟨r', s''⟩, hexec, hout⟩ := except_map_eq_ok.mp h
    cases hout
    obtain ⟨hseq, hrows⟩ := Visible.execute_ids hexec
    refine ⟨hseq, fun uid b' hb' => (hrows uid b' hb').imp_right ?_⟩
    rintro ⟨hid, hlt, row, rfl, huid⟩
    exact ⟨hid, hlt, row, rfl, huid⟩
  | inr c =>
    have hseq : s'.bookingsSeq = s.bookingsSeq := (Visible.executeCycle_row h).2.1
    refine ⟨hseq.ge, fun uid b' hb' => .inl ?_⟩
    have hrow := (Visible.executeCycle_row h).2.2 uid
    split at hrow
    · obtain ⟨b, hb, hwrite⟩ := hrow
      obtain rfl := Option.some.inj (hb'.symm.trans hb)
      obtain ⟨old, hold, hfills⟩ := hwrite.fillsNulls not_false
      exact ⟨old, hold, by rw [hfills.columns]⟩
    · rw [hrow] at hb'
      exact ⟨b', hb', rfl⟩

variable [DecidableEq ι]

/-- A version after a step was one before, but for the row of an upsert that is new. -/
lemma Version.of_step {a : Action ServiceCalls ι}
    (hstep : p.Step (serviceReadCommitted ext resolver candidates) a q) {uid : String}
    {b : BookingRow} (h : Version q uid b) :
    (∃ b₀, Version p uid b₀ ∧ b₀.id = b.id) ∨
      b.id = p.shared.1.bookingsSeq ∧ p.shared.1.bookingsSeq < q.shared.1.bookingsSeq ∧
        ∃ i row, a = .call i (.inl (.upsertBooking row)) ∧ row.bookingUid = uid := by
  have hother {j : ι} (hj : j ≠ a.tx) (hr : q.Running j) (hb : (q.tx j).own.bookings uid = some b) :
      Version p uid b := by
    rw [Pool.Running, hstep.tx_of_ne hj] at hr
    rw [hstep.tx_of_ne hj] at hb
    exact .inr ⟨j, hr, hb⟩
  have hview {i : ι} (hr : p.Running i) {b : BookingRow}
      (hb : ((p.tx i).own.bookings uid).or (p.shared.1.bookings uid) = some b) :
      Version p uid b := by
    rcases Option.or_eq_some_iff.mp hb with hb | ⟨_, hb⟩
    · exact .inr ⟨i, hr, hb⟩
    · exact .inl hb
  cases hstep with
  | @call i c next r x running rest free answer =>
    rcases h with h | ⟨j, hj, hb⟩
    · exact .inl ⟨b, .inl h, rfl⟩
    · by_cases hji : j = i
      · subst hji
        rw [Pool.set_tx_self] at hb
        obtain ⟨s, n⟩ := x
        have hb' : (if writesRow ext (p.view (serviceReadCommitted ext resolver candidates) j).1 uid c
            then s.bookings uid else (p.tx j).own.bookings uid) = some b := hb
        split at hb'
        · rcases (Visible.executeService_ids answer).2 uid b hb' with ⟨b₀, hb₀, hid⟩ |
            ⟨hid, hlt, row, rfl, huid⟩
          · exact .inl ⟨b₀, hview running hb₀, hid⟩
          · exact .inr ⟨hid, hlt, j, row, rfl, huid⟩
        · exact .inl ⟨b, .inr ⟨j, running, hb'⟩, rfl⟩
      · exact .inl ⟨b, hother hji hj hb, rfl⟩
  | @commit i running rest =>
    rcases h with h | ⟨j, hj, hb⟩
    · exact .inl ⟨b, hview running h, rfl⟩
    · refine .inl ⟨b, hother (fun hji : j = i => ?_) hj hb, rfl⟩
      subst hji
      rw [Pool.Running, Pool.set_tx_self] at hj
      cases hj
  | @abort i running =>
    rcases h with h | ⟨j, hj, hb⟩
    · exact .inl ⟨b, .inl h, rfl⟩
    · refine .inl ⟨b, hother (fun hji : j = i => ?_) hj hb, rfl⟩
      subst hji
      rw [Pool.Running, Pool.set_tx_self] at hj
      cases hj

lemma DistinctIds.step (h : DistinctIds p) {a : Action ServiceCalls ι}
    (hstep : p.Step (serviceReadCommitted ext resolver candidates) a q) : DistinctIds q := by
  have hseq : p.shared.1.bookingsSeq ≤ q.shared.1.bookingsSeq := by
    cases hstep with
    | @call i c next r x running rest free answer => exact (Visible.executeService_ids answer).1
    | commit running rest => exact le_rfl
    | abort running => exact le_rfl
  refine ⟨fun uid b hb => ?_, fun uid uid' b b' hb hb' hid => ?_⟩
  · rcases hb.of_step hstep with ⟨b₀, hb₀, hid⟩ | ⟨hid, hlt, _⟩
    · exact hid ▸ (h.lt uid b₀ hb₀).trans_le hseq
    · exact hid ▸ hlt
  · rcases hb.of_step hstep with ⟨b₀, hb₀, hid₀⟩ | ⟨hid₀, _, i, row, ha, huid⟩
    · rcases hb'.of_step hstep with ⟨b₁, hb₁, hid₁⟩ | ⟨hid₁, _, i, row, ha, huid⟩
      · exact h.uid_eq uid uid' b₀ b₁ hb₀ hb₁ (by rw [hid₀, hid₁, hid])
      · have hlt := h.lt uid b₀ hb₀
        omega
    · rcases hb'.of_step hstep with ⟨b₁, hb₁, hid₁⟩ | ⟨hid₁, _, i', row', ha', huid'⟩
      · have hlt := h.lt uid' b₁ hb₁
        omega
      · cases ha.symm.trans ha'
        exact huid.symm.trans huid'

end Versions

/-- How far an open transaction has come: a save has done nothing, has inserted its event, or has
written its row; the rows that a cycle has written are those it has filled. -/
inductive Stage (ext : Externals) : Task → Tx ServiceCalls Exc Writes → Prop
  | fresh {now : Timestamp} {m : Message} {t : Tx ServiceCalls Exc Writes}
      (rest : t.rest = (IngestEvent.execute ext now m).inl) (own : t.own = .empty) :
      Stage ext (.save now m) t
  | unwritten {now : Timestamp} {m : Message} {t : Tx ServiceCalls Exc Writes} {p : Ingest Unit}
      (rest : t.rest = p.inl) (once : WritesOnce p) (inserts : p.Every fun c : Call => ¬ c.IsInsertion)
      (own : ∀ uid, t.own.bookings uid = none) : Stage ext (.save now m) t
  | written {now : Timestamp} {m : Message} {t : Tx ServiceCalls Exc Writes} {p : Ingest Unit}
      {uid : String} {b : BookingRow} (rest : t.rest = p.inl)
      (only : p.Every (Call.WritesOnly (some b.id))) (own : t.own.bookings uid = some b) :
      Stage ext (.save now m) t
  | cycle {batchSize : Nat} {t : Tx ServiceCalls Exc Writes}
      (calls : t.rest.Every OfCycle)
      (filled : ∀ uid b, t.own.bookings uid = some b → ∃ e ∈ t.trace, fillId e.1 = some b.id) :
      Stage ext (.runOnce batchSize) t

/-- The side table that a call writes. -/
def sideTable : ServiceCalls.Call → Option SideTable
  | .inl c => c.table
  | .inr _ => none

def servicePlace : ServiceCalls.Call → Option ℕ
  | .inl c => c.place
  | .inr _ => none

lemma servicePlace_of_sideTable {c : ServiceCalls.Call} {t : SideTable}
    (h : sideTable c = some t) : servicePlace c = some t.place := by
  cases c with
  | inl c => exact Call.place_of_table h
  | inr c => cases h

/-- The next statement of a transaction is on a side table, and another open transaction has made a
statement on that table. Whether they meet in a row of it is left open. A statement takes one row of
such a table, so that one that waits has not taken any yet. -/
def SharesTable {ι : Type} (p : ServicePool ι) (i j : ι) : Prop :=
  p.Running i ∧ p.Running j ∧ j ≠ i ∧ ∃ t c next, (p.tx i).rest = .call c next ∧
    sideTable c = some t ∧ ∃ e ∈ (p.tx j).trace, sideTable e.1 = some t

/-- A transaction waits for an event or a bookings row of another one, or may have to wait for a row
of a side table. -/
def HeldUp {ι : Type} (I : Isolation ServiceCalls Exc (Visible × Nat) Writes) (p : ServicePool ι)
    (i j : ι) : Prop :=
  p.WaitsFor I i j ∨ SharesTable p i j

section Pools

variable {ι : Type} {ext : Externals}
  {resolver : Nat → String → RecipientRole → Except Exc Resolution}
  {candidates : Visible → Nat → List Candidate} {p q : ServicePool ι} {task : Task}

/-- What a transaction has got after the answer to a call. -/
lemma Stage.call {t : Tx ServiceCalls Exc Writes} (h : Stage ext task t)
    (hsave : ∀ now m, task = .save now m → m.eventType ≠ EventType.userSynced.value)
    {c : ServiceCalls.Call} {next : ServiceCalls.Reply c → Program ServiceCalls Exc Unit}
    {r : ServiceCalls.Reply c} {x y : Visible × Nat} (hrest : t.rest = .call c next)
    (hview : ∀ uid b, t.own.bookings uid = some b → x.1.bookings uid = some b)
    (answer : Visible.executeService ext resolver candidates c x = .ok (r, y)) :
    Stage ext task ⟨.running, t.trace ++ [⟨c, r⟩], next r,
      (serviceReadCommitted ext resolver candidates).write t.own c x y⟩ := by
  obtain ⟨s, n⟩ := x
  obtain ⟨s', n'⟩ := y
  have hwrite (uid : String) : ((serviceReadCommitted ext resolver candidates).write t.own c (s, n)
      (s', n')).bookings uid =
        if writesRow ext s uid c then s'.bookings uid else t.own.bookings uid := rfl
  have hrow (uid : String) := Visible.executeService_row answer uid
  cases h with
  | @fresh now m t rest own =>
    rw [rest] at hrest
    cases hparse : EventParser.parse ext now m with
    | error e =>
      rw [execute_of_not_parse hparse] at hrest
      cases hrest
    | ok event =>
      rw [execute_of_parse hparse] at hrest
      cases hrest
      have htype : event.eventType ≠ EventType.userSynced.value := by
        rw [(EventParser.parse_filed ext hparse).2.1]
        exact hsave now m rfl
      refine .unwritten rfl (writesOnce_gated htype r) (gated_every_not_isInsertion r) fun uid => ?_
      rw [hwrite, own]
      rfl
  | @unwritten now m t p rest once inserts own =>
    rw [rest] at hrest
    cases once with
    | pure => cases hrest
    | throw e => cases hrest
    | @upsert row next' hnext =>
      cases hrest
      have hanswer : (Visible.execute ext (.upsertBooking row) s).map
          (fun out => (out.1, (out.2, n))) = .ok (r, (s', n')) := answer
      cases hanswer
      refine @Stage.written ext _ _ _ _ row.bookingUid
        (row.upserted s.bookingsSeq (s.bookings row.bookingUid)) rfl (hnext _) ?_
      have hself : writesRow ext s row.bookingUid (.inl (.upsertBooking row)) = true :=
        beq_self_eq_true row.bookingUid
      exact (hwrite _).trans ((if_pos hself).trans (Function.update_self _ _ _))
    | @other c' next' hc hnext =>
      cases hrest
      refine .unwritten rfl (hnext r) (inserts.2 r) fun uid => ?_
      have hw : writesRow ext s uid (.inl c') = false := hc.writes_none
      rw [hwrite, hw]
      exact own uid
  | @written now m t p uid b rest only own =>
    rw [rest] at hrest
    cases p with
    | pure a => cases hrest
    | throw e => cases hrest
    | call c' next' =>
      cases hrest
      have hown := hwrite uid
      split at hown
      · have hrow := hrow uid
        rw [if_pos ‹_›] at hrow
        obtain ⟨b', hb', hwrites⟩ := hrow
        rw [hview uid b own] at hwrites
        rw [hb'] at hown
        refine .written rfl ?_ hown
        rw [hwrites.id_eq]
        exact only.2 r
      · exact .written rfl (only.2 r) (hown.trans own)
  | @cycle batchSize t calls filled =>
    rw [hrest] at calls
    refine .cycle (calls.2 r) fun uid b hb => ?_
    rw [hwrite] at hb
    split at hb
    · rename_i hw
      have hrow := hrow uid
      rw [if_pos hw] at hrow
      obtain ⟨b', hb', hwrites⟩ := hrow
      obtain rfl := Option.some.inj (hb.symm.trans hb')
      cases c with
      | inl c => exact calls.1.elim
      | inr c =>
        cases c with
        | fillSlot id role userId =>
          obtain ⟨old, hold, hid⟩ := (Option.any_eq_true _ _).mp hw
          rw [hold] at hwrites
          refine ⟨⟨.inr (.fillSlot id role userId), r⟩, List.mem_concat_self, ?_⟩
          rw [hwrites.id_eq]
          exact congrArg some (eq_of_beq (Bool.and_eq_true_iff.mp hid).1).symm
        | _ => cases hw
    · obtain ⟨e, he, hid⟩ := filled uid b hb
      exact ⟨e, List.mem_append_left _ he, hid⟩

variable [DecidableEq ι] {entry : ι → Task} {x : Visible × Nat}

/-- What holds in a pool that has been reached: the guard of the rows, the ids, and the stages of
the open transactions. -/
structure Orderly (ext : Externals) (entry : ι → Task) (p : ServicePool ι) : Prop where
  guarded : Guarded p
  ids : DistinctIds p
  stage : ∀ i, p.Running i → Stage ext (entry i) (p.tx i)

lemma orderly_of_run (hids : DistinctIds
      (Pool.start (serviceReadCommitted ext resolver candidates) x fun i => (entry i).program ext))
    (hsave : ∀ i now m, entry i = .save now m → m.eventType ≠ EventType.userSynced.value)
    (run : Pool.Steps (serviceReadCommitted ext resolver candidates)
      (Pool.start (serviceReadCommitted ext resolver candidates) x fun i => (entry i).program ext)
      p) : Orderly ext entry p := by
  refine ⟨guarded_of_run run, run.invariant hids fun hp _ hstep => hp.step hstep, ?_⟩
  refine run.invariant (P := fun p => ∀ i, p.Running i → Stage ext (entry i) (p.tx i))
    (fun i _ => ?_) fun {p a q} hp _ hstep => ?_
  · cases hentry : entry i with
    | save now m =>
      refine .fresh ?_ rfl
      change (entry i).program ext = _
      rw [hentry]
      rfl
    | runOnce batchSize =>
      refine .cycle ?_ fun uid b hb => (by cases hb)
      change ((entry i).program ext).Every _
      rw [hentry]
      exact (Program.every_inr (fun _ => trivial) _).bind fun _ => trivial
  · refine hstep.forall_tx (P := fun i t => t.status = .running → Stage ext (entry i) t) hp ?_
    cases hstep with
    | @call i c next r y running rest free answer =>
      intro _
      rw [Action.tx, Pool.set_tx_self]
      refine (hp i running).call (hsave i) rest (fun uid b hb => ?_) answer
      change ((p.tx i).own.bookings uid).or (p.shared.1.bookings uid) = some b
      rw [hb, Option.some_or]
    | @commit i running rest =>
      rw [Action.tx, Pool.set_tx_self]
      intro hr
      cases hr
    | @abort i running =>
      rw [Action.tx, Pool.set_tx_self]
      intro hr
      cases hr

omit [DecidableEq ι]

/-- A transaction waits for an event, or for a row that the other one has written. -/
lemma waits_cases {i j : ι} (h : p.WaitsFor (serviceReadCommitted ext resolver candidates) i j) :
    p.Running i ∧ p.Running j ∧ j ≠ i ∧ ∃ (c : ServiceCalls.Call)
      (next : ServiceCalls.Reply c → Program ServiceCalls Exc Unit), (p.tx i).rest = .call c next ∧
        ((∃ row : EventRow, c = .inl (.insertEvent row) ∧ (p.tx j).own.events ≠ []) ∨
          (∀ row : EventRow, c ≠ .inl (.insertEvent row)) ∧ ∃ uid b,
            writesRow ext (p.view (serviceReadCommitted ext resolver candidates) i).1 uid c = true ∧
              (p.tx j).own.bookings uid = some b) := by
  obtain ⟨hi, hj, hji, c, next, hrest, hblocks⟩ := h
  refine ⟨hi, hj, hji, c, next, hrest, ?_⟩
  have hrow (h : ∃ uid, writesRow ext (p.view (serviceReadCommitted ext resolver candidates) i).1 uid
      c = true ∧ ((p.tx j).own.bookings uid).isSome = true) : ∃ uid b,
        writesRow ext (p.view (serviceReadCommitted ext resolver candidates) i).1 uid c = true ∧
          (p.tx j).own.bookings uid = some b := by
    obtain ⟨uid, hw, hsome⟩ := h
    obtain ⟨b, hb⟩ := Option.isSome_iff_exists.mp hsome
    exact ⟨uid, b, hw, hb⟩
  cases c with
  | inl c =>
    cases c with
    | insertEvent row =>
      refine .inl ⟨row, rfl, fun hnil => ?_⟩
      have hconflict : (p.tx j).own.events.any row.conflicts = true := hblocks.2
      rw [hnil] at hconflict
      cases hconflict
    | _ => exact .inr ⟨fun _ heq => (by cases heq), hrow hblocks⟩
  | inr c => exact .inr ⟨fun _ heq => (by cases heq), hrow hblocks⟩

lemma version_of_view {i : ι} {uid : String} {b : BookingRow} (hr : p.Running i)
    (hb : (p.view (serviceReadCommitted ext resolver candidates) i).1.bookings uid = some b) :
    Version p uid b := by
  rcases Option.or_eq_some_iff.mp hb with hb | ⟨_, hb⟩
  · exact .inr ⟨i, hr, hb⟩
  · exact .inl hb

/-- A save that waits has written no row. It waits for an event before it has inserted its own, or
for the row that it upserts. -/
lemma Orderly.save_waits (h : Orderly ext entry p) {j k : ι} {now : Timestamp} {m : Message}
    (hentry : entry j = .save now m)
    (hwaits : p.WaitsFor (serviceReadCommitted ext resolver candidates) j k) :
    (∀ uid, (p.tx j).own.bookings uid = none) ∧
      ∃ (c : Call) (next : ServiceCalls.Reply (.inl c) → Program ServiceCalls Exc Unit),
        (p.tx j).rest = .call (S := ServiceCalls) (.inl c) next ∧
          ((∃ row, c = .insertEvent row) ∧ (p.tx j).own.events = [] ∨
            ∃ row, c = .upsertBooking row) := by
  obtain ⟨hj, hk, hkj, c, next, hrest, hcause⟩ := waits_cases hwaits
  have hstage := h.stage j hj
  rw [hentry] at hstage
  cases hstage with
  | fresh rest own =>
    rw [own]
    refine ⟨fun _ => rfl, ?_⟩
    rw [rest] at hrest ⊢
    cases hparse : EventParser.parse ext now m with
    | error e =>
      rw [execute_of_not_parse hparse] at hrest
      cases hrest
    | ok event =>
      rw [execute_of_parse hparse]
      exact ⟨_, _, rfl, .inl ⟨⟨_, rfl⟩, rfl⟩⟩
  | @unwritten _ _ _ q rest once inserts own =>
    refine ⟨own, ?_⟩
    rw [rest] at hrest ⊢
    cases once with
    | pure => cases hrest
    | throw e => cases hrest
    | upsert hnext => exact ⟨_, _, rfl, .inr ⟨_, rfl⟩⟩
    | @other c' next' hc hnext =>
      exfalso
      cases hrest
      rcases hcause with ⟨row, heq, _⟩ | ⟨_, uid, _, hw, _⟩
      · cases heq
        exact hc
      · rw [writesRow, hc.writes_none] at hw
        cases hw
  | @written _ _ _ q uid b rest only own =>
    exfalso
    rw [rest] at hrest
    cases q with
    | pure a => cases hrest
    | throw e => cases hrest
    | call c' next' =>
      cases hrest
      rcases hcause with ⟨row, heq, _⟩ | ⟨_, uid', b', hw, hb'⟩
      · cases heq
        exact only.1
      · cases c' with
        | updateClient id userId =>
          obtain ⟨b₁, hb₁, hid⟩ := (Option.any_eq_true _ _).mp hw
          have hsame : b₁.id = b.id := (eq_of_beq hid).trans (Option.some.inj only.1).symm
          obtain rfl := h.ids.uid_eq uid' uid b₁ b (version_of_view hj hb₁)
            (.inr ⟨j, hj, own⟩) hsame
          refine hkj (h.guarded.holder uid' k j hk hj ?_ ?_)
          · rw [hb']
            exact Option.some_ne_none b'
          · rw [own]
            exact Option.some_ne_none b
        | upsertBooking row => exact only.1
        | backfillUserIdByEmail email role userId => exact only.1
        | _ => cases hw

lemma ascends_runOnce (batchSize : Nat) :
    ((Task.runOnce batchSize).program ext).Ascends InOrder (· ≤ ·) fillId := by
  have hcycle : ((UserIdBackfillService.runOnceProgram batchSize).inr :
      Program ServiceCalls Exc BackfillSummary).Ascends InOrder (· ≤ ·) fillId :=
    Program.Ascends.inr (runOnceProgram_ascends batchSize)
  exact hcycle.bind_none fun _ => trivial

lemma executeService_inOrder (hcandidates : ∀ s n, (candidates s n).Pairwise fun a b => a.id ≤ b.id)
    (c : ServiceCalls.Call) (s : Visible × Nat) (r : ServiceCalls.Reply c) (s' : Visible × Nat)
    (h : Visible.executeService ext resolver candidates c s = .ok (r, s')) : InOrder c r := by
  cases c with
  | inl c => trivial
  | inr c =>
    cases c with
    | selectCandidates batchSize =>
      cases h
      exact hcandidates _ _
    | _ => trivial

lemma distinctIds_start {db : Db} (h : db.WellFormed) {requests : Nat} :
    DistinctIds (Pool.start (serviceReadCommitted ext resolver candidates) (db.visible, requests)
      fun i => (entry i).program ext) := by
  have hversion {uid : String} {b : BookingRow}
      (hb : Version (Pool.start (serviceReadCommitted ext resolver candidates)
        (db.visible, requests) fun i => (entry i).program ext) uid b) :
      b ∈ db.tables.bookings ∧ b.bookingUid = uid := by
    rcases hb with hb | ⟨i, _, hb⟩
    · exact ⟨List.mem_of_find?_eq_some hb, findBooking_uid hb⟩
    · cases hb
  refine ⟨fun uid b hb => ?_, fun uid uid' b b' hb hb' hid => ?_⟩
  · exact h.ids_lt b.id (List.mem_map_of_mem (hversion hb).1)
  · have hsame := List.inj_on_of_nodup_map h.ids (hversion hb).1 (hversion hb').1 hid
    rw [← (hversion hb).2, ← (hversion hb').2, hsame]

/-- The place of a call in the order in which transactions may hold up one another: the insertion of
the event, the upsert of a booking, the rows that a cycle fills, the side tables. -/
def waitRank : ServiceCalls.Call → ℕ ×ₗ ℕ
  | .inl (.insertEvent _) => toLex (0, 0)
  | .inl c => c.table.elim (toLex (1, 0)) fun t => toLex (3, t.place)
  | .inr (.fillSlot id _ _) => toLex (2, id)
  | .inr _ => toLex (0, 0)

/-- The place of a transaction, by the call it has to make next. -/
def txRank (p : ServicePool ι) (i : ι) : ℕ ×ₗ ℕ :=
  match (p.tx i).rest with
  | .call c _ => waitRank c
  | _ => toLex (0, 0)

lemma waitRank_of_sideTable {c : ServiceCalls.Call} {t : SideTable} (h : sideTable c = some t) :
    waitRank c = toLex (3, t.place) := by
  cases c with
  | inl c =>
    have helim : (c.table.elim (toLex (1, 0)) fun t => toLex (3, t.place) : ℕ ×ₗ ℕ) =
        toLex (3, t.place) := congrArg (Option.elim · _ _) h
    cases c with
    | insertEvent row => cases h
    | _ => exact helim
  | inr c => cases h

lemma txRank_eq {i : ι} {c : ServiceCalls.Call}
    {next : ServiceCalls.Reply c → Program ServiceCalls Exc Unit}
    (h : (p.tx i).rest = .call c next) : txRank p i = waitRank c := by
  rw [txRank, h]

/-- A cycle that waits does so for a row that it fills. -/
lemma Orderly.cycle_waits (h : Orderly ext entry p) {j k : ι} {batchSize : Nat}
    (hentry : entry j = .runOnce batchSize)
    (hwaits : p.WaitsFor (serviceReadCommitted ext resolver candidates) j k) :
    ∃ id role userId next uid b b',
      (p.tx j).rest = .call (S := ServiceCalls) (.inr (.fillSlot id role userId)) next ∧
        (p.view (serviceReadCommitted ext resolver candidates) j).1.bookings uid = some b ∧
          b.id = id ∧ (p.tx k).own.bookings uid = some b' := by
  obtain ⟨hj, hk, hkj, c, next, hrest, hcause⟩ := waits_cases hwaits
  have hstage := h.stage j hj
  rw [hentry] at hstage
  cases hstage with
  | cycle calls filled =>
    rw [hrest] at calls
    cases c with
    | inl c => exact calls.1.elim
    | inr c =>
      rcases hcause with ⟨row, heq, _⟩ | ⟨_, uid, b', hw, hb'⟩
      · cases heq
      · cases c with
        | fillSlot id role userId =>
          obtain ⟨b, hb, hid⟩ := (Option.any_eq_true _ _).mp hw
          exact ⟨id, role, userId, next, uid, b, b', hrest, hb,
            eq_of_beq (Bool.and_eq_true_iff.mp hid).1, hb'⟩
        | _ => cases hw

lemma Orderly.holder (h : Orderly ext entry p) {i j : ι} {uid : String} {b b' : BookingRow}
    (hb : (p.tx i).own.bookings uid = some b) (hb' : (p.tx j).own.bookings uid = some b')
    (hi : p.Running i) (hj : p.Running j) : i = j := by
  refine h.guarded.holder uid i j hi hj ?_ ?_
  · rw [hb]
    exact Option.some_ne_none b
  · rw [hb']
    exact Option.some_ne_none b'

/-- A version that another transaction has written has the id that one sees. -/
lemma Orderly.id_eq (h : Orderly ext entry p) {i j : ι} (hi : p.Running i) (hj : p.Running j)
    (hji : j ≠ i) {uid : String} {b b₀ : BookingRow} (hb : (p.tx j).own.bookings uid = some b)
    (hb₀ : (p.view (serviceReadCommitted ext resolver candidates) i).1.bookings uid = some b₀) :
    b₀.id = b.id := by
  rcases Option.or_eq_some_iff.mp hb₀ with hown | ⟨_, hshared⟩
  · exact absurd (h.holder hb hown hj hi) hji
  · exact ((h.guarded.derived j hj uid b hb).kept b₀ hshared).1.symm

/-- A cycle has filled no row above the one it fills next. -/
lemma Orderly.filled_le [DecidableEq ι] (h : Orderly ext entry p)
    (hcandidates : ∀ s n, (candidates s n).Pairwise fun a b => a.id ≤ b.id)
    (run : Pool.Steps (serviceReadCommitted ext resolver candidates)
      (Pool.start (serviceReadCommitted ext resolver candidates) x fun i => (entry i).program ext) p)
    {j : ι} {batchSize : Nat} (hentry : entry j = .runOnce batchSize) (hj : p.Running j)
    {uid : String} {b : BookingRow} (hb : (p.tx j).own.bookings uid = some b) {id : Nat}
    {role : RecipientRole} {userId : Uuid}
    {next : Unit → Program ServiceCalls Exc Unit}
    (hrest : (p.tx j).rest = .call (S := ServiceCalls) (.inr (.fillSlot id role userId)) next) :
    b.id ≤ id := by
  have hpath := (run.follows j).path
  rw [hentry] at hpath
  have hadmitted := run.admitted (A := InOrder) (executeService_inOrder hcandidates) j
  have habove := (hpath.ascends (ascends_runOnce batchSize) hadmitted).2
  have hstage := h.stage j hj
  rw [hentry] at hstage
  cases hstage with
  | cycle calls filled =>
    obtain ⟨e, he, hid⟩ := filled uid b hb
    have hnext := habove e he b.id hid
    rw [hrest] at hnext
    exact hnext.1 id rfl

/-- A transaction that waits for an event or a bookings row comes before the side tables. -/
lemma Orderly.rank_of_waits (h : Orderly ext entry p) {i j : ι}
    (hwaits : p.WaitsFor (serviceReadCommitted ext resolver candidates) i j) (n : ℕ) :
    txRank p i < toLex (3, n) := by
  rw [Prod.Lex.lt_iff]
  refine .inl ?_
  cases hentry : entry i with
  | save now m =>
    obtain ⟨_, c, next, hrest, ⟨⟨row, rfl⟩, _⟩ | ⟨row, rfl⟩⟩ := h.save_waits hentry hwaits
    · rw [txRank_eq hrest]
      exact Nat.zero_lt_succ 2
    · rw [txRank_eq hrest]
      exact Nat.one_lt_succ_succ 1
  | runOnce batchSize =>
    obtain ⟨id, role, userId, next, _, _, _, hrest, _⟩ := h.cycle_waits hentry hwaits
    rw [txRank_eq hrest]
    exact Nat.lt_succ_self 2

/-- The rank rises along two waits in a row for events and bookings rows. -/
lemma Orderly.rank_lt_of_waits [DecidableEq ι] (h : Orderly ext entry p)
    (hcandidates : ∀ s n, (candidates s n).Pairwise fun a b => a.id ≤ b.id)
    (run : Pool.Steps (serviceReadCommitted ext resolver candidates)
      (Pool.start (serviceReadCommitted ext resolver candidates) x fun i => (entry i).program ext) p)
    {i j k : ι} (hij : p.WaitsFor (serviceReadCommitted ext resolver candidates) i j)
    (hjk : p.WaitsFor (serviceReadCommitted ext resolver candidates) j k) :
    txRank p i < txRank p j := by
  obtain ⟨hi, hj, hji, c, next, hrest, hcause⟩ := waits_cases hij
  rw [txRank_eq hrest]
  cases hentry : entry j with
  | save now m =>
    obtain ⟨hnone, c', next', hrest', hc'⟩ := h.save_waits hentry hjk
    rw [txRank_eq hrest']
    rcases hcause with ⟨row, rfl, hevents⟩ | ⟨_, uid, b, _, hb⟩
    · rcases hc' with ⟨_, hnil⟩ | ⟨row', rfl⟩
      · exact absurd hnil hevents
      · exact Prod.Lex.toLex_lt_toLex.mpr (.inl Nat.zero_lt_one)
    · rw [hnone uid] at hb
      cases hb
  | runOnce batchSize =>
    obtain ⟨id, role, userId, next', uid', b₁, b₂, hrest', hb₁, hid, hb₂⟩ := h.cycle_waits hentry hjk
    rw [txRank_eq hrest']
    rcases hcause with ⟨row, rfl, _⟩ | ⟨hnot, uid, b, hw, hb⟩
    · exact Prod.Lex.toLex_lt_toLex.mpr (.inl Nat.zero_lt_two)
    · cases c with
      | inl c =>
        cases c with
        | insertEvent row => exact absurd rfl (hnot row)
        | saveOrganizerHistory ref userId => cases hw
        | project stmt => cases hw
        | _ => exact Prod.Lex.toLex_lt_toLex.mpr (.inl Nat.one_lt_two)
      | inr c =>
        cases c with
        | fillSlot id' role' userId' =>
          obtain ⟨b₀, hb₀, hid₀⟩ := (Option.any_eq_true _ _).mp hw
          have hb' : b.id = id' := by
            rw [← h.id_eq hi hj hji hb hb₀]
            exact eq_of_beq (Bool.and_eq_true_iff.mp hid₀).1
          have hle : b.id ≤ id := h.filled_le hcandidates run hentry hj hb hrest'
          have hne : b.id ≠ id := by
            intro heq
            have huid := h.ids.uid_eq uid uid' b b₁ (.inr ⟨j, hj, hb⟩) (version_of_view hj hb₁)
              (heq.trans hid.symm)
            subst huid
            exact (waits_cases hjk).2.2.1 (h.holder hb₂ hb (waits_cases hjk).2.1 hj)
          have hlt : id' < id := hb' ▸ lt_of_le_of_ne hle hne
          exact Prod.Lex.toLex_lt_toLex.mpr (.inr ⟨rfl, hlt⟩)
        | _ => cases hw

/-- A transaction that has made a statement on a side table is a save, and what it has still to do
comes after that table. -/
lemma after_table [DecidableEq ι]
    (hsave : ∀ i now m, entry i = .save now m → m.eventType ≠ EventType.userSynced.value ∧
      m.eventType ≠ EventType.getstreamMessageRead.value)
    (run : Pool.Steps (serviceReadCommitted ext resolver candidates)
      (Pool.start (serviceReadCommitted ext resolver candidates) x fun i => (entry i).program ext) p)
    {j : ι} {t : SideTable} {e : Σ c, ServiceCalls.Reply c} (he : e ∈ (p.tx j).trace)
    (htable : sideTable e.1 = some t) :
    (∃ now m, entry j = .save now m) ∧
      ∀ c next, (p.tx j).rest = .call c next → ∀ k, servicePlace c = some k → t.place < k := by
  have hpath := (run.follows j).path
  obtain ⟨c | c, r⟩ := e
  · cases hentry : entry j with
    | runOnce batchSize =>
      rw [hentry] at hpath
      have hcycle : ((Task.runOnce batchSize).program ext).Every OfCycle :=
        (Program.every_inr (fun _ => trivial) _).bind fun _ => trivial
      exact ((hpath.every hcycle).1 _ he).elim
    | save now m =>
      refine ⟨⟨now, m, rfl⟩, fun c' next hrest k hk => ?_⟩
      rw [hentry] at hpath
      obtain ⟨hsynced, hread⟩ := hsave j now m hentry
      have hascends : ((Task.save now m).program ext).Ascends (fun _ _ => True) (· < ·)
          servicePlace := Program.Ascends.inl (fromPlace_execute hsynced hread).ascends
      have habove := (hpath.ascends hascends fun _ _ => trivial).2 _ he t.place
        (servicePlace_of_sideTable htable)
      rw [hrest] at habove
      exact habove.1 k hk
  · cases htable

/-- The rank rises along two transactions in a row that are held up. -/
theorem Orderly.txRank_lt [DecidableEq ι] (h : Orderly ext entry p)
    (hcandidates : ∀ s n, (candidates s n).Pairwise fun a b => a.id ≤ b.id)
    (hsave : ∀ i now m, entry i = .save now m → m.eventType ≠ EventType.userSynced.value ∧
      m.eventType ≠ EventType.getstreamMessageRead.value)
    (run : Pool.Steps (serviceReadCommitted ext resolver candidates)
      (Pool.start (serviceReadCommitted ext resolver candidates) x fun i => (entry i).program ext) p)
    {i j k : ι} (hij : HeldUp (serviceReadCommitted ext resolver candidates) p i j)
    (hjk : HeldUp (serviceReadCommitted ext resolver candidates) p j k) :
    txRank p i < txRank p j := by
  rcases hij with hij | ⟨_, _, _, t, c, next, hrest, hc, e, he, htable⟩
  · rcases hjk with hjk | ⟨_, _, _, t', c', next', hrest', hc', _⟩
    · exact h.rank_lt_of_waits hcandidates run hij hjk
    · rw [txRank_eq hrest', waitRank_of_sideTable hc']
      exact h.rank_of_waits hij t'.place
  · obtain ⟨⟨now, m, hentry⟩, hafter⟩ := after_table hsave run he htable
    rw [txRank_eq hrest, waitRank_of_sideTable hc]
    rcases hjk with hjk | ⟨_, _, _, t', c', next', hrest', hc', _⟩
    · obtain ⟨_, c', next', hrest', ⟨⟨row, rfl⟩, _⟩ | ⟨row, rfl⟩⟩ := h.save_waits hentry hjk
      · exact absurd (hafter _ _ hrest' 0 rfl) (Nat.not_lt_zero _)
      · have hplace : 1 ≤ t.place := by cases t <;> decide
        exact absurd (hafter _ _ hrest' 1 rfl) hplace.not_gt
    · rw [txRank_eq hrest', waitRank_of_sideTable hc']
      have hplace := hafter _ _ hrest' t'.place (servicePlace_of_sideTable hc')
      exact Prod.Lex.toLex_lt_toLex.mpr (.inr ⟨rfl, hplace⟩)

/-- The order of the candidates that a cycle reads. -/
lemma selectCandidates_ascend (bookings : List BookingRow) (batchSize : Nat) :
    ((selectCandidates bookings batchSize).map BookingRow.candidate).Pairwise
      fun a b => a.id ≤ b.id := by
  have hsorted := List.pairwise_insertionSort (fun a b : BookingRow => a.id ≤ b.id)
    (bookings.filter fun b => b.incomplete)
  exact List.pairwise_map.mpr (hsorted.sublist (List.take_sublist _ _))

/-- Booking saves and cycles of the periodic backfill do not deadlock. In every pool of them that is
reached statement by statement, with none that announces a user or tells what has been read, nobody
is held up in a circle. As long as a transaction is open, one that nobody holds up gets its next
statement answered, commits, or has raised. -/
theorem no_deadlock [DecidableEq ι] [Finite ι] {db : Db} (hdb : db.WellFormed) {requests : Nat}
    (hcandidates : ∀ s n, (candidates s n).Pairwise fun a b => a.id ≤ b.id)
    (hsave : ∀ i now m, entry i = .save now m → m.eventType ≠ EventType.userSynced.value ∧
      m.eventType ≠ EventType.getstreamMessageRead.value)
    (run : Pool.Steps (serviceReadCommitted ext resolver candidates)
      (Pool.start (serviceReadCommitted ext resolver candidates) (db.visible, requests)
        fun i => (entry i).program ext) p) :
    ¬ Circular (HeldUp (serviceReadCommitted ext resolver candidates) p) ∧
      ((∃ i, p.Running i) → ∃ i, p.Running i ∧
        (∀ j, ¬ HeldUp (serviceReadCommitted ext resolver candidates) p i j) ∧
          p.Proceeds (serviceReadCommitted ext resolver candidates) i) := by
  have horderly := orderly_of_run (distinctIds_start hdb) (fun i now m h => (hsave i now m h).1) run
  have hcircle := not_circular_of_rank (txRank p) fun i j k hij hjk =>
    horderly.txRank_lt hcandidates hsave run hij hjk
  have hopen (i j : ι) (h : HeldUp (serviceReadCommitted ext resolver candidates) p i j) :
      p.Running j := by
    rcases h with ⟨_, hj, _⟩ | ⟨_, hj, _⟩ <;> exact hj
  refine ⟨hcircle, fun hsome => ?_⟩
  obtain ⟨i, hi, hfree⟩ := exists_end_of_not_circular hcircle hopen hsome
  exact ⟨i, hi, hfree, Pool.proceeds_of_not_waiting hi fun j hwaits => hfree j (.inl hwaits)⟩

end Pools

/-- Two bookings whose organizers are not resolved. -/
def unresolvedOrganizers : Db :=
  (saveEvent .sample 0 (.sample BOOKING_LIFECYCLE_SAVER_QUEUE "2" "c" .bookingCreated 1
    (listing [participant .organizer "a@example.org" .null,
      participant .client "c@example.org" (.str "00000000-0000-0000-0000-00000000000b")]))
    unresolvedBooking).2

/-- Two cycles of the backfill, and creations of a booking that is known and of one that is not. -/
def cyclesAndCreations : Fin 4 → Task
  | 0 => .runOnce 2
  | 1 => .runOnce 2
  | 2 => created "3" "c"
  | 3 => created "4" "d"
where
  created (eventId uid : String) : Task :=
    .save 0 (.sample BOOKING_LIFECYCLE_SAVER_QUEUE eventId uid .bookingCreated 2
      (listing [participant .organizer "a@example.org" (.str "00000000-0000-0000-0000-00000000000a")]))

section Chain

/-- The resolver knows every user, and a cycle reads the two bookings. -/
def chainIsolation : Isolation ServiceCalls Exc (Visible × Nat) Writes :=
  serviceReadCommitted .sample (fun _ _ _ => .ok (.answered (some ⟨12⟩))) fun _ _ =>
    [⟨0, "b", none, some ⟨11⟩⟩, ⟨1, "c", none, some ⟨11⟩⟩]

def chainStart : ServicePool (Fin 4) :=
  Pool.start chainIsolation (unresolvedOrganizers.visible, 0) fun i =>
    (cyclesAndCreations i).program .sample

/-- What is committed stays, but for the sequence. -/
def chainShared (bookingsSeq requests : Nat) : Visible × Nat :=
  ({ unresolvedOrganizers.visible with bookingsSeq := bookingsSeq }, requests)

lemma chainStart_shared : chainStart.shared = chainShared 2 0 :=
  Prod.ext (Visible.ext rfl rfl rfl) rfl

lemma fin_four_cases {motive : Fin 4 → Prop} (zero : motive 0) (one : motive 1) (two : motive 2)
    (three : motive 3) : ∀ i, motive i
  | 0 => zero
  | 1 => one
  | 2 => two
  | 3 => three

lemma chain_passes_empty (n : Nat) (t : Tx ServiceCalls Exc Writes) (x : Visible × Nat) :
    chainIsolation.Passes .empty n t x := servicePasses_empty _ _ _ n t x

/-- How far they come: one cycle to the row of the first booking, the other one past it, one creation
to its history, and the other one past it. -/
def chainTx : Fin 4 → Tx ServiceCalls Exc Writes
  | 0 => (chainIsolation.advance 3 (chainStart.tx 0) (chainShared 4 1)).1
  | 1 => (chainIsolation.advance 5 (chainStart.tx 1) (chainShared 4 0)).1
  | 2 => (chainIsolation.advance 3 (chainStart.tx 2) (chainShared 3 0)).1
  | 3 => (chainIsolation.advance 4 (chainStart.tx 3) (chainShared 2 0)).1

lemma chainTx_rows (uid : String) : (uid ≠ "c" → (chainTx 2).own.bookings uid = none) ∧
    (uid ≠ "d" → (chainTx 3).own.bookings uid = none) :=
  ⟨fun h => if_neg fun heq => h (eq_of_beq heq), fun h => if_neg fun heq => h (eq_of_beq heq)⟩

/-- A statement that writes no row waits for none. -/
lemma not_waits_of_writes_none {writes held : String → Prop} (h : ∀ uid, ¬ writes uid) :
    ¬ ∃ uid, writes uid ∧ held uid :=
  fun hwaits => hwaits.elim fun uid hrow => h uid hrow.1

/-- The one creation neither inserts the event nor upserts the row of the other one. -/
lemma chain_passes_creation :
    chainIsolation.Passes (chainTx 3).own 3 (chainStart.tx 2) (chainShared 3 0) := by
  refine And.intro (fun h => absurd h.2 (by decide)) (And.intro
    (not_waits_of_writes_none fun _ => Bool.false_ne_true) (And.intro ?_ trivial))
  rintro ⟨uid, huid, hsome⟩
  rw [(chainTx_rows uid).2 (by rw [eq_of_beq huid]; decide)] at hsome
  cases hsome

/-- The creations come first. -/
lemma exists_creations : ∃ p, Pool.Steps chainIsolation chainStart p ∧ p.tx 2 = chainTx 2 ∧
    p.tx 3 = chainTx 3 ∧ (∀ j, j ≠ 2 → j ≠ 3 → p.tx j = chainStart.tx j) ∧
      p.shared = chainShared 4 0 := by
  obtain ⟨p, hwrites, hother, hwrite⟩ :=
    Pool.exists_advance (I := chainIsolation) (p := chainStart) (i := 3) 4 rfl
      (fun _ _ _ => chain_passes_empty 4 _ _) (fun _ _ _ _ => trivial)
  rw [chainStart_shared] at hwrite
  have h3 : p.tx 3 = chainTx 3 := congrArg Prod.fst hwrite
  have hshared : p.shared = chainShared 3 0 := congrArg Prod.snd hwrite
  have h2 := hother 2 (by decide)
  obtain ⟨q, hupserts, hother', hupsert⟩ :=
    Pool.exists_advance (I := chainIsolation) (p := p) (i := 2) 3
      (by rw [Pool.Running, h2]; rfl) (fun j hj _ => by
        by_cases hj3 : j = 3
        · rw [hj3, h2, h3, hshared]
          exact chain_passes_creation
        · rw [hother j hj3]
          exact chain_passes_empty 3 _ _) (fun _ _ _ _ => trivial)
  rw [h2, hshared] at hupsert
  exact ⟨q, hwrites.trans hupserts, congrArg Prod.fst hupsert, (hother' 3 (by decide)).trans h3,
    fun j hj2 hj3 => (hother' j hj2).trans (hother j hj3), congrArg Prod.snd hupsert⟩

lemma chain_passes {other : Writes} {uid' : String}
    (hrow : ∀ uid, uid ≠ uid' → other.bookings uid = none)
    (hother : (unresolvedOrganizers.visible.bookings uid').any
      (fun b => b.id == 0 && b.userId .organizer == none) = false) :
    chainIsolation.Passes other 5 (chainStart.tx 1) (chainShared 4 0) := by
  refine And.intro (not_waits_of_writes_none fun _ => Bool.false_ne_true)
    (And.intro (not_waits_of_writes_none fun _ => Bool.false_ne_true)
      (And.intro (not_waits_of_writes_none fun _ => Bool.false_ne_true) (And.intro ?_
        (And.intro (not_waits_of_writes_none fun _ => Bool.false_ne_true) trivial))))
  rintro ⟨uid, huid, hsome⟩
  by_cases heq : uid = uid'
  · rw [heq] at huid
    exact Bool.false_ne_true (hother.symm.trans huid)
  · rw [hrow uid heq] at hsome
    cases hsome

/-- Then the cycles. -/
lemma exists_chain : ∃ p, Pool.Steps chainIsolation chainStart p ∧ p.tx = chainTx ∧
    p.shared = chainShared 4 2 := by
  obtain ⟨p, hcreates, h2, h3, hstart, hshared⟩ := exists_creations
  have h0 := hstart 0 (by decide) (by decide)
  have h1 := hstart 1 (by decide) (by decide)
  obtain ⟨q, hfills, hother, hfill⟩ :=
    Pool.exists_advance (I := chainIsolation) (p := p) (i := 1) 5
      (by rw [Pool.Running, h1]; rfl) (fun j hj _ => by
        rw [h1, hshared]
        cases j using fin_four_cases with
        | zero =>
          rw [h0]
          exact chain_passes_empty 5 _ _
        | one => exact absurd rfl hj
        | two =>
          rw [h2]
          exact chain_passes (fun uid => (chainTx_rows uid).1) (by decide)
        | three =>
          rw [h3]
          exact chain_passes (fun uid => (chainTx_rows uid).2) (by decide))
      (fun _ _ _ _ => trivial)
  rw [h1, hshared] at hfill
  have hshared' : q.shared = chainShared 4 1 := congrArg Prod.snd hfill
  have h0' := (hother 0 (by decide)).trans h0
  obtain ⟨r, hreads, hother', hread⟩ :=
    Pool.exists_advance (I := chainIsolation) (p := q) (i := 0) 3
      (by rw [Pool.Running, h0']; rfl) (fun j _ _ => by
        rw [h0', hshared']
        exact And.intro (not_waits_of_writes_none fun _ => Bool.false_ne_true)
          (And.intro (not_waits_of_writes_none fun _ => Bool.false_ne_true)
            (And.intro (not_waits_of_writes_none fun _ => Bool.false_ne_true) trivial)))
      (fun _ _ _ _ => trivial)
  rw [h0', hshared'] at hread
  refine ⟨r, (hcreates.trans hfills).trans hreads, funext fun j => ?_, congrArg Prod.snd hread⟩
  cases j using fin_four_cases with
  | zero => exact congrArg Prod.fst hread
  | one => exact (hother' 1 (by decide)).trans (congrArg Prod.fst hfill)
  | two => exact (hother' 2 (by decide)).trans ((hother 2 (by decide)).trans h2)
  | three => exact (hother' 3 (by decide)).trans ((hother 3 (by decide)).trans h3)

lemma chainTx_running (i : Fin 4) : (chainTx i).status = .running := by
  cases i using fin_four_cases <;> rfl

/-- What they have to do next, and what the last of them has done. -/
lemma chainTx_calls :
    (∃ next, (chainTx 0).rest = .call (S := ServiceCalls) (.inr (.fillSlot 0 .organizer ⟨12⟩)) next) ∧
    (∃ next, (chainTx 1).rest = .call (S := ServiceCalls) (.inr (.fillSlot 1 .organizer ⟨12⟩)) next) ∧
    (∃ ref row next, (chainTx 2).rest =
      .call (S := ServiceCalls) (.inl (.saveOrganizerHistory ref row)) next) ∧
    ∃ e ∈ (chainTx 3).trace, sideTable e.1 = some .organizerHistory :=
  ⟨⟨_, rfl⟩, ⟨_, rfl⟩, ⟨_, _, _, rfl⟩, _, List.mem_concat_self, rfl⟩

lemma chainTx_holds : ((chainTx 1).own.bookings "b").isSome = true ∧
    ((chainTx 2).own.bookings "c").isSome = true := ⟨rfl, rfl⟩

/-- A cycle waits for the row that another one has filled, this one for the row of a creation, and
this one may have to wait for another creation, which has written the history, too. -/
theorem no_deadlock_chain : ∃ p : ServicePool (Fin 4), HeldUp chainIsolation p 0 1 ∧
    HeldUp chainIsolation p 1 2 ∧ HeldUp chainIsolation p 2 3 ∧
      ¬ Circular (HeldUp chainIsolation p) ∧
        ∃ i, p.Running i ∧ (∀ j, ¬ HeldUp chainIsolation p i j) ∧ p.Proceeds chainIsolation i := by
  obtain ⟨p, hsteps, htx, hshared⟩ := exists_chain
  have hrunning (i : Fin 4) : p.Running i := by
    rw [Pool.Running, htx]
    exact chainTx_running i
  obtain ⟨⟨next₀, hrest₀⟩, ⟨next₁, hrest₁⟩, ⟨ref, row, next₂, hrest₂⟩, htable⟩ := chainTx_calls
  rw [← htx] at hrest₀ hrest₁ hrest₂ htable
  have hholds := chainTx_holds
  rw [← htx] at hholds
  have hreachable : unresolvedOrganizers.Reachable .sample := .save (.save .empty .none 0 _) .none 0 _
  have hcandidates : List.Pairwise (fun a b : Candidate => a.id ≤ b.id)
      [⟨0, "b", none, some ⟨11⟩⟩, ⟨1, "c", none, some ⟨11⟩⟩] :=
    selectCandidates_ascend unresolvedOrganizers.tables.bookings 2
  have hsave : ∀ i now m, cyclesAndCreations i = .save now m →
      m.eventType ≠ EventType.userSynced.value ∧
        m.eventType ≠ EventType.getstreamMessageRead.value := by
    intro i now m h
    cases i using fin_four_cases <;> cases h
    · decide
    · decide
  have hdeadlock := no_deadlock hreachable.wellFormed (fun _ _ => hcandidates) hsave hsteps
  refine ⟨p, .inl ⟨hrunning 0, hrunning 1, by decide, _, next₀, hrest₀, "b", ?_, hholds.1⟩,
    .inl ⟨hrunning 1, hrunning 2, by decide, _, next₁, hrest₁, "c", ?_, hholds.2⟩,
    .inr ⟨hrunning 2, hrunning 3, by decide, .organizerHistory, _, next₂, hrest₂, rfl, htable⟩,
    hdeadlock.1, hdeadlock.2 ⟨0, hrunning 0⟩⟩
  · rw [Pool.view, htx, hshared]
    rfl
  · rw [Pool.view, htx, hshared]
    rfl

end Chain

end EventSaver
