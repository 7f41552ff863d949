import EventSaver.EmailJobs
import EventSaver.Library.Timeline

/-!
# The current status of an e-mail job

A notification shows the status that was processed last, whatever its time. The history keeps every
status.
-/

namespace EventSaver
open JsonData TableData EffectProgram

/-- The delivery status of a job that a message reports. -/
def reportOf (ext : Externals) (jobId : String) (m : Message) : Option StatusReport :=
  (m.statusReport ext).filter fun r => r.jobId == jobId

/-- The delivery statuses of a job in the order of arrival. -/
def reports (ext : Externals) (jobId : String) (ms : Journal) : List StatusReport :=
  ms.filterMap fun entry => reportOf ext jobId entry.2

/-- The event time of a status that has one. -/
def StatusReport.when (r : StatusReport) : Timestamp := r.time.getD 0

def EmailStatus.when (s : EmailStatus) : Timestamp := s.statusEventTime.getD 0

/-- A status with its event time and the event it stems from. -/
structure ShownStatus where
  status : Option String
  time : Option Timestamp
  eventId : Option String
  deriving DecidableEq

def StatusReport.shown (r : StatusReport) : ShownStatus := ⟨r.status, r.time, some r.eventId⟩

def EmailStatus.shown (s : EmailStatus) : ShownStatus :=
  ⟨some s.status, s.statusEventTime, some s.sourceEventId⟩

def EmailNotification.shown (n : EmailNotification) : ShownStatus :=
  ⟨n.lastStatus, n.lastStatusEventTime, n.lastStatusEventId⟩

/-- A job shows the newest of its statuses, which is also the newest of its history. -/
def ShowsNewestStatus (cell : Option EmailCell) (reports : List StatusReport) : Prop :=
  ∀ r, newest StatusReport.when reports = some r →
    ∃ c, cell = some c ∧ c.notification.shown = r.shown ∧
      (newest EmailStatus.when c.statusHistory).map EmailStatus.shown = some c.notification.shown

section Steps

variable {ext : Externals} {jobId : String} {entry : Timestamp × Message} {r : StatusReport}

lemma reportOf_eq_some : reportOf ext jobId entry.2 = some r ↔
    entry.2.statusReport ext = some r ∧ r.jobId = jobId := by
  rw [reportOf, Option.filter_eq_some_iff, beq_iff_eq]

lemma emailStep_of_report (h : reportOf ext jobId entry.2 = some r) (cell : Option EmailCell) :
    emailStep ext jobId entry cell = some (r.record (entry.2.bookingId.getD "") cell) := by
  obtain ⟨hr, rfl⟩ := reportOf_eq_some.mp h
  rw [emailStep, if_pos (statusReport_keys hr).1, hr]

/-- A message that reports no status of a job leaves the statuses of the job alone. -/
lemma emailStep_of_no_report (h : reportOf ext jobId entry.2 = none) (cell : Option EmailCell) :
    emailStep ext jobId entry cell = cell ∨
      ∃ f : SentFact, emailStep ext jobId entry cell =
        some (f.record (entry.2.bookingId.getD "") cell) := by
  rw [emailStep]
  split
  next hjob =>
    split
    next r _ hr =>
      have hjob' := (statusReport_keys hr).1.symm.trans hjob
      rw [reportOf_eq_some.mpr ⟨hr, Option.some.inj hjob'⟩] at h
      cases h
    next f _ _ => exact .inr ⟨f, rfl⟩
    next => exact .inl rfl
  next => exact .inl rfl

end Steps

section Runs

variable {ext : Externals} {jobId : String} {ms : Journal} {db : Db}

variable (ext jobId) in
/-- A reading of the cell of a job that sent facts leave alone depends on the statuses. -/
lemma foldl_reports {σ : Type} (π : Option EmailCell → σ) (step : σ → StatusReport → σ)
    (hreport : ∀ (uid : String) (r : StatusReport) (cell : Option EmailCell),
      π (some (r.record uid cell)) = step (π cell) r)
    (hsent : ∀ (uid : String) (f : SentFact) (cell : Option EmailCell),
      π (some (f.record uid cell)) = π cell) (ms : Journal) (cell : Option EmailCell) :
    π (ms.foldl (fun cell entry => emailStep ext jobId entry cell) cell) =
      (reports ext jobId ms).foldl step (π cell) := by
  rw [reports, List.foldl_filterMap]
  induction ms generalizing cell with
  | nil => rfl
  | cons entry rest ih =>
    rw [List.foldl_cons, List.foldl_cons, ih]
    cases hr : reportOf ext jobId entry.2 with
    | some r => rw [emailStep_of_report hr, hreport]
    | none =>
      rcases emailStep_of_no_report hr cell with hcell | ⟨f, hcell⟩
      · rw [hcell]
      · rw [hcell, hsent]

variable (ext jobId) in
/-- The history of a job after a series of messages: the statuses are added in their order. -/
lemma statusHistory_foldl (ms : Journal) (cell : Option EmailCell) :
    (ms.foldl (fun cell entry => emailStep ext jobId entry cell) cell).elim []
        (·.statusHistory) =
      cell.elim [] (·.statusHistory) ++
        (reports ext jobId ms).filterMap StatusReport.historyRow := by
  have hfold := foldl_reports ext jobId (fun cell => cell.elim [] (·.statusHistory))
    (fun rows r => rows ++ r.historyRow.toList) (fun uid r cell => by cases cell <;> rfl)
    (fun uid f cell => by cases cell <;> rfl) ms cell
  rw [hfold]
  generalize reports ext jobId ms = rs
  generalize cell.elim [] (·.statusHistory) = rows
  induction rs generalizing rows with
  | nil => exact (List.append_nil rows).symm
  | cons r rest ih =>
    rw [List.foldl_cons, ih, List.filterMap_cons, List.append_assoc]
    cases r.historyRow <;> rfl

variable (ext jobId) in
/-- The status a job shows after a series of messages: the last one. -/
lemma shown_foldl (ms : Journal) (cell : Option EmailCell) :
    (ms.foldl (fun cell entry => emailStep ext jobId entry cell) cell).elim ⟨none, none, none⟩
        (·.notification.shown) =
      ((reports ext jobId ms).getLast?).elim
        (cell.elim ⟨none, none, none⟩ (·.notification.shown)) StatusReport.shown := by
  have hfold := foldl_reports ext jobId
    (fun cell => cell.elim ⟨none, none, none⟩ (·.notification.shown)) (fun _ r => r.shown)
    (fun uid r cell => by cases cell <;> rfl) (fun uid f cell => by cases cell <;> rfl) ms cell
  rw [hfold]
  generalize reports ext jobId ms = rs
  generalize cell.elim ⟨none, none, none⟩ (·.notification.shown) = shown
  induction rs using List.reverseRecOn with
  | nil => rfl
  | append_singleton rest r _ => rw [List.foldl_concat, List.getLast?_concat]; rfl

variable (jobId) in
lemma nodup_reports (h : db.WellFormed) (hp : Processed ext ms db) :
    ((reports ext jobId ms).map StatusReport.eventId).Nodup := by
  have hids := List.pairwise_map.mp (hp.nodup_eventIds h)
  rw [List.Nodup, reports, List.pairwise_map, List.pairwise_filterMap]
  refine hids.imp fun {entry entry'} hne r hr r' hr' heq => hne ?_
  rw [← (statusReport_keys (reportOf_eq_some.mp hr).1).2,
    ← (statusReport_keys (reportOf_eq_some.mp hr').1).2, heq]

lemma when_historyRow {r : StatusReport} {s : EmailStatus} (h : r.historyRow = some s) :
    s.when = r.when := by
  obtain ⟨status, _, rfl⟩ := Option.map_eq_some_iff.mp h
  rfl

/-- The newest row of a history that keeps every status is that of the newest status. -/
lemma newest_history {rs : List StatusReport} (hstatus : ∀ r ∈ rs, r.status.isSome = true)
    (htimes : DistinctTimes StatusReport.when rs) {r : StatusReport}
    (h : newest StatusReport.when rs = some r) :
    (newest EmailStatus.when (rs.filterMap StatusReport.historyRow)).map EmailStatus.shown =
      some r.shown := by
  have htimes' : DistinctTimes EmailStatus.when (rs.filterMap StatusReport.historyRow) := by
    intro a ha b hb hab
    obtain ⟨r, hr, hrow⟩ := List.mem_filterMap.mp ha
    obtain ⟨r', hr', hrow'⟩ := List.mem_filterMap.mp hb
    rw [when_historyRow hrow, when_historyRow hrow'] at hab
    rw [htimes r hr r' hr' hab, hrow'] at hrow
    exact (Option.some.inj hrow).symm
  obtain ⟨hmem, hmax⟩ := newest_spec h
  obtain ⟨status, htext⟩ := Option.isSome_iff_exists.mp (hstatus r hmem)
  have hrow : r.historyRow = some ⟨status, r.time, r.clickedUrl, r.eventId⟩ := by
    rw [StatusReport.historyRow, htext]
    rfl
  have hnewest : newest EmailStatus.when (rs.filterMap StatusReport.historyRow) =
      some ⟨status, r.time, r.clickedUrl, r.eventId⟩ := by
    refine (newest_eq_some htimes').mpr ⟨List.mem_filterMap.mpr ⟨r, hmem, hrow⟩, fun a ha => ?_⟩
    obtain ⟨r', hr', hrow'⟩ := List.mem_filterMap.mp ha
    rw [when_historyRow hrow']
    exact hmax r' hr'
  rw [hnewest, StatusReport.shown, htext]
  rfl

/-- A job shows its newest status if and only if that status is processed after all others. -/
theorem showsNewestStatus_iff (hdb : db.Reachable ext) (hnone : db.emailCellOf jobId = none)
    (hfiled : ∀ entry ∈ ms, entry.2.emailJobId? = some jobId → ∃ uid, entry.2.FiledUnder uid)
    (hstatus : ∀ r ∈ reports ext jobId ms, r.status.isSome = true ∧ r.time.isSome = true)
    (htimes : DistinctTimes StatusReport.when (reports ext jobId ms))
    (hp : Processed ext ms db) :
    ShowsNewestStatus ((saveAll ext ms db).emailCellOf jobId) (reports ext jobId ms) ↔
      (reports ext jobId ms).getLast? = newest StatusReport.when (reports ext jobId ms) := by
  have hhistory := statusHistory_foldl ext jobId ms none
  have hshown := shown_foldl ext jobId ms none
  have hids := nodup_reports jobId hdb.wellFormed hp
  rw [ShowsNewestStatus, emailCellOf_saveAll hdb.wellFormed hp hfiled, hnone]
  generalize ms.foldl (fun cell entry => emailStep ext jobId entry cell) none = cell
    at hhistory hshown ⊢
  generalize reports ext jobId ms = rs at *
  constructor
  · intro hshows
    cases hnewest : newest StatusReport.when rs with
    | none =>
      rw [newest_eq_none.mp hnewest]
      rfl
    | some r =>
      obtain ⟨c, rfl, hc, _⟩ := hshows r hnewest
      cases hlast : rs.getLast? with
      | none =>
        rw [List.getLast?_eq_none_iff.mp hlast] at hnewest
        cases hnewest
      | some last =>
        rw [hlast] at hshown
        have hid : last.eventId = r.eventId :=
          Option.some.inj (congrArg ShownStatus.eventId (hshown.symm.trans hc))
        have hmem := List.mem_of_getLast? hlast
        rw [List.inj_on_of_nodup_map hids hmem (newest_spec hnewest).1 hid]
  · intro hlast r hnewest
    rw [hlast, hnewest] at hshown
    cases cell with
    | none =>
      have hid : none = some r.eventId := congrArg ShownStatus.eventId hshown
      cases hid
    | some c =>
      have hc : c.notification.shown = r.shown := hshown
      have hrows : c.statusHistory = rs.filterMap StatusReport.historyRow := hhistory
      refine ⟨c, rfl, hc, ?_⟩
      rw [hrows, newest_history (fun r hr => (hstatus r hr).1) htimes hnewest, hc]

end Runs

/-- The sent fact of a job, its delivery and its opening. -/
def deliveredThenOpened : Journal :=
  [ sentMessage, statusMessage "1" "delivered" "2026-01-15T10:00:00Z",
    statusMessage "2" "opened" "2026-01-15T10:05:00Z"]

theorem showsNewestStatus_deliveredThenOpened :
    ShowsNewestStatus ((saveAll .dated deliveredThenOpened .empty).emailCellOf "j")
      (reports .dated "j" deliveredThenOpened) := by
  have hp : Processed .dated deliveredThenOpened .empty := ⟨rfl, rfl, rfl, trivial⟩
  refine (showsNewestStatus_iff .empty rfl ?_ (by decide) ?_ hp).mpr (by decide)
  · simp only [deliveredThenOpened, List.forall_mem_cons, List.not_mem_nil, false_imp_iff,
      implies_true, and_true]
    exact ⟨fun _ => ⟨"b", rfl, by decide, by decide⟩, fun _ => ⟨"b", rfl, by decide, by decide⟩,
      fun _ => ⟨"b", rfl, by decide, by decide⟩⟩
  · unfold DistinctTimes
    decide

/-- The same messages, with the delivery last. -/
def openedThenDelivered : Journal :=
  [deliveredThenOpened[0], deliveredThenOpened[2], deliveredThenOpened[1]]

/-- The older status overwrites the newer one. -/
theorem not_showsNewestStatus_openedThenDelivered :
    Processed .dated openedThenDelivered .empty ∧ Db.empty.emailCellOf "j" = none ∧
      (∀ entry ∈ openedThenDelivered, entry.2.FiledUnder "b") ∧
      (∀ r ∈ reports .dated "j" openedThenDelivered,
        r.status.isSome = true ∧ r.time.isSome = true) ∧
      DistinctTimes StatusReport.when (reports .dated "j" openedThenDelivered) ∧
      ¬ ShowsNewestStatus ((saveAll .dated openedThenDelivered .empty).emailCellOf "j")
        (reports .dated "j" openedThenDelivered) := by
  refine ⟨⟨rfl, rfl, rfl, trivial⟩, rfl, ?_, by decide, ?_, fun hshows => ?_⟩
  · simp only [openedThenDelivered, List.forall_mem_cons, List.not_mem_nil, false_imp_iff,
      implies_true, and_true]
    exact ⟨⟨rfl, by decide, by decide⟩, ⟨rfl, by decide, by decide⟩, ⟨rfl, by decide, by decide⟩⟩
  · unfold DistinctTimes
    decide
  · obtain ⟨c, hc, hshown, _⟩ := hshows _ rfl
    have hlast : c.notification.lastStatus = some "delivered" := Option.some.inj hc ▸ rfl
    have hnewest : c.notification.lastStatus = some "opened" := congrArg ShownStatus.status hshown
    rw [hlast] at hnewest
    exact absurd hnewest (by decide)

end EventSaver
