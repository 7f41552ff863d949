import EventSaver.Library.Timeline
import EventSaver.MalformedPayloads
import EventSaver.Processing

/-!
# Meeting links

A creation overwrites the link of a user and a deletion removes it. Neither looks at the time of
the link, nor at the role of the addressee.
-/

namespace EventSaver
open JsonData TableData EffectProgram

/-- What a meeting-link event does to the link of a user. A deletion has no address. -/
structure LinkChange where
  userId : Uuid
  meetingUrl : Option String
  eventId : String
  occurredAt : Timestamp
  deriving DecidableEq

/-- The row a change leaves. -/
def LinkChange.row (c : LinkChange) : Option MeetingLink :=
  c.meetingUrl.map fun url => ⟨c.userId, url, c.eventId, c.occurredAt⟩

/-- The booking_meeting_links rows of a booking and a user. -/
def Db.linksOf (db : Db) (uid : String) (user : Uuid) : List MeetingLink :=
  match findBooking uid db.tables.bookings with
  | some b => (rowsOf b.id db.tables.meetingLinks).filter fun l => l.userId == user
  | none => []

/-- The change of the user an event resolves to. -/
def HandleArgs.linkChange (args : HandleArgs) : Option LinkChange :=
  if args.event.eventType = EventType.meetingUrlDeleted.value then
    (args.organizerUserId.or args.clientUserId).map fun userId =>
      ⟨userId, none, args.event.eventId, args.event.occurredAt⟩
  else if args.event.eventType = EventType.meetingUrlCreated.value then
    match args.organizerUserId.or args.clientUserId,
      (Payload.originalOf args.event.payload).get? "meeting_url" with
    | some userId, some (.str url) =>
      some ⟨userId, some url, args.event.eventId, args.event.occurredAt⟩
    | _, _ => none
  else none

def Message.linkChange (ext : Externals) (now : Timestamp) (m : Message) : Option LinkChange :=
  (m.handleArgs ext now).bind HandleArgs.linkChange

/-- The changes of the link of a user, in the order of arrival. -/
def linkChanges (ext : Externals) (user : Uuid) (ms : Journal) : List LinkChange :=
  ms.filterMap fun entry =>
    (entry.2.linkChange ext entry.1).filter fun c => c.userId == user

/-- The link of a user is what the newest change leaves. -/
def ShowsNewestLink (links : List MeetingLink) (changes : List LinkChange) : Prop :=
  ∀ c, newest LinkChange.occurredAt changes = some c → links = c.row.toList

section Writes

variable {ext : Externals} {args : HandleArgs} {writes : List ProjectionWrite}

def LinkChange.write (ref : Nat) (c : LinkChange) : ProjectionWrite :=
  match c.row with
  | some row => .upsertMeetingLink ref row
  | none => .deleteMeetingLink ref c.userId

/-- The write for the link change of an event. -/
lemma write_linkChange {write : Option ProjectionWrite}
    (h : StatementBuilder.write ⟨MeetingLinkProjection.canHandle, MeetingLinkProjection.handle⟩
      args = .ok write) :
    write = args.linkChange.map (LinkChange.write args.bookingRefId) := by
  unfold HandleArgs.linkChange
  by_cases hcan : MeetingLinkProjection.canHandle args.event = true
  · rw [StatementBuilder.write_of hcan] at h
    obtain ⟨stmt, hstmt, h⟩ := bind_eq_ok.mp h
    dsimp only at hstmt
    rw [MeetingLinkProjection.handle] at hstmt
    rw [MeetingLinkProjection.canHandle, Bool.or_eq_true, beq_iff_eq, beq_iff_eq] at hcan
    cases huser : args.organizerUserId.or args.clientUserId with
    | none =>
      rw [huser] at hstmt
      cases hstmt
      cases h
      simp
    | some userId =>
      rw [huser] at hstmt
      dsimp only at hstmt
      split at hstmt
      next hdeleted =>
        cases hstmt
        cases h
        rw [if_pos hdeleted]
        rfl
      next hdeleted =>
        simp only [bind_eq_ok] at hstmt
        obtain ⟨original, horiginal, url, hurl, hstmt⟩ := hstmt
        cases hstmt
        obtain ⟨w, hbind, hw⟩ := except_map_eq_ok.mp h
        obtain ⟨text, hparam, hbind⟩ := bind_eq_ok.mp hbind
        cases hbind
        have hfound : (Payload.originalOf args.event.payload).get? "meeting_url" =
            some (.str text) := by
          have htext : url = .str text := by
            cases url <;> first | exact congrArg Json.str (Except.ok.inj hparam) | cases hparam
          have hget := (Payload.get_eq_ok.mp hurl).2
          rw [htext, eq_comm, Json.getD_null_eq_str, (Payload.original_eq_ok.mp horiginal).2] at hget
          exact hget
        rw [if_neg hdeleted, if_pos (hcan.resolve_right hdeleted), hfound, ← hw]
        rfl
  · rw [StatementBuilder.write_of_not hcan] at h
    rw [MeetingLinkProjection.canHandle, Bool.or_eq_true, beq_iff_eq, beq_iff_eq, not_or] at hcan
    rw [if_neg hcan.2, if_neg hcan.1]
    cases h
    rfl

/-- The effect of a change on the links of its booking. -/
def LinkChange.apply (c : LinkChange) (links : List MeetingLink) : List MeetingLink :=
  match c.row with
  | some row => upsertWhere (fun l => l.userId == row.userId) (fun _ => row) row links
  | none => links.filter fun l => !(l.userId == c.userId)

/-- The effect of a write on the links of its booking. -/
def linkWrite (links : List MeetingLink) (w : ProjectionWrite) : List MeetingLink :=
  match w with
  | .upsertMeetingLink _ row =>
    upsertWhere (fun l => l.userId == row.userId) (fun _ => row) row links
  | .deleteMeetingLink _ userId => links.filter fun l => !(l.userId == userId)
  | _ => links

lemma meetingLink_collected (h : projectionWrites ext args = .ok writes) :
    ∃ write, StatementBuilder.write
        ⟨MeetingLinkProjection.canHandle, MeetingLinkProjection.handle⟩ args = .ok write ∧
      (writes.filter fun w => w.kind == .meetingLink) = write.toList := by
  obtain ⟨ws, hws, hfilter⟩ := projectionWrites_filter h fun kind => kind == .meetingLink
  cases hws with
  | @cons _ write _ ws hwrite hws =>
    cases hws
    refine ⟨write, hwrite, ?_⟩
    rw [hfilter, List.flatMap_cons, List.flatMap_nil, List.append_nil]

/-- The links after the writes for an event. -/
lemma meetingLinks_writes (h : projectionWrites ext args = .ok writes) (base : BookingCell) :
    (writes.foldl (fun cell w => cell.write w) base).meetingLinks =
      args.linkChange.elim base.meetingLinks fun c => c.apply base.meetingLinks := by
  have hfold (ws : List ProjectionWrite) (base : BookingCell) :
      (ws.foldl (fun cell w => cell.write w) base).meetingLinks =
        ws.foldl linkWrite base.meetingLinks := by
    induction ws generalizing base with
    | nil => rfl
    | cons w rest ih =>
      rw [List.foldl_cons, ih, List.foldl_cons]
      cases w <;> rfl
  have hothers (rows : List MeetingLink) (w : ProjectionWrite)
      (hw : (w.kind == .meetingLink) = false) : linkWrite rows w = rows := by
    cases w <;> first | rfl | cases hw
  obtain ⟨write, hwrite, hfilter⟩ := meetingLink_collected h
  rw [hfold, @foldl_filter_kind writes _ _ (fun kind => kind == .meetingLink) hothers, hfilter,
    write_linkChange hwrite]
  cases hc : args.linkChange with
  | none => rfl
  | some c => cases hrow : c.row <;> simp [LinkChange.write, LinkChange.apply, hrow, linkWrite]

variable {c : LinkChange} {user : Uuid}

/-- A change is of the organizer if the event has one, and else of the client. -/
lemma linkChange_spec (h : args.linkChange = some c) :
    args.organizerUserId.or args.clientUserId = some c.userId ∧
      c.eventId = args.event.eventId ∧
      (c.meetingUrl = none ↔ args.event.eventType = EventType.meetingUrlDeleted.value) := by
  unfold HandleArgs.linkChange at h
  split at h
  next hdeleted =>
    obtain ⟨userId, huser, rfl⟩ := Option.map_eq_some_iff.mp h
    exact ⟨huser, rfl, fun _ => hdeleted, fun _ => rfl⟩
  next hdeleted =>
    split at h
    · split at h
      next huser _ =>
        cases h
        exact ⟨huser, rfl, fun hurl => (by cases hurl), fun htype => absurd htype hdeleted⟩
      next => cases h
    · cases h

lemma userId_row {row : MeetingLink} (h : c.row = some row) : row.userId = c.userId := by
  obtain ⟨_, _, rfl⟩ := Option.map_eq_some_iff.mp h
  rfl

/-- The links of one user after a change of that user. -/
def LinkChange.replace (c : LinkChange) (links : List MeetingLink) : List MeetingLink :=
  if links = [] then c.row.toList else links.flatMap fun _ => c.row.toList

lemma filter_apply_self (links : List MeetingLink) :
    (c.apply links).filter (fun l => l.userId == c.userId) =
      c.replace (links.filter fun l => l.userId == c.userId) := by
  unfold LinkChange.apply LinkChange.replace
  split
  next row hrow =>
    have huser := userId_row hrow
    rw [hrow, huser, Option.toList_some, upsertWhere]
    by_cases hany : links.any (fun l => l.userId == c.userId) = true
    · have hne : ¬ (links.filter fun l => l.userId == c.userId) = [] := by
        obtain ⟨l, hl, hp⟩ := List.any_eq_true.mp hany
        exact List.ne_nil_of_mem (List.mem_filter.mpr ⟨hl, hp⟩)
      rw [if_pos hany, if_neg hne, updateWhere, List.filter_map, ← List.map_eq_flatMap]
      have hsame : links.filter ((fun l => l.userId == c.userId) ∘
          fun l => if (l.userId == c.userId) = true then row else l) =
          links.filter fun l => l.userId == c.userId := by
        refine List.filter_congr fun l _ => ?_
        by_cases hl : l.userId = c.userId
        · simp [hl, huser]
        · simp [hl]
      rw [hsame]
      refine List.map_congr_left fun l hl => ?_
      rw [if_pos (List.mem_filter.mp hl).2]
    · have hnil : (links.filter fun l => l.userId == c.userId) = [] := by
        rw [List.filter_eq_nil_iff]
        exact fun l hl hp => hany (List.any_eq_true.mpr ⟨l, hl, hp⟩)
      rw [if_neg hany, if_pos hnil, List.filter_append, hnil, List.nil_append]
      simp [huser]
  next hrow =>
    rw [hrow, List.filter_filter]
    simp

lemma filter_apply_other (h : c.userId ≠ user) (links : List MeetingLink) :
    (c.apply links).filter (fun l => l.userId == user) =
      links.filter fun l => l.userId == user := by
  unfold LinkChange.apply
  split
  next row hrow =>
    have huser := userId_row hrow
    refine filter_upsertWhere (fun l _ hl => ?_) ?_
    · rw [beq_iff_eq] at hl
      rw [hl, huser]
      exact ⟨beq_eq_false_iff_ne.mpr h, beq_eq_false_iff_ne.mpr h⟩
    · rw [huser]
      exact beq_eq_false_iff_ne.mpr h
  next =>
    rw [List.filter_filter]
    refine List.filter_congr fun l _ => ?_
    by_cases hl : l.userId = user
    · simp [hl, h.symm]
    · simp [hl]

end Writes

section Steps

variable {ext : Externals} {now : Timestamp} {m : Message} {uid : String} {user : Uuid} {db : Db}

lemma linksOf_eq (db : Db) (uid : String) (user : Uuid) :
    db.linksOf uid user =
      ((db.cellOf uid).elim [] (·.meetingLinks)).filter fun l => l.userId == user := by
  have hcell : db.cellOf uid = (findBooking uid db.tables.bookings).map (cellOf db.tables) := rfl
  rw [Db.linksOf, hcell]
  cases findBooking uid db.tables.bookings <;> rfl

/-- The link change of a message is that of the arguments its handlers are called with. -/
lemma linkChange_of_handled {args : HandleArgs} {writes : List ProjectionWrite}
    (h : Handled ext now m uid db args writes) : m.linkChange ext now = args.linkChange := by
  by_cases hreassigned : m.eventType = EventType.bookingClientReassigned.value
  · have hnone (args : HandleArgs) (hparse : EventParser.parse ext now m = .ok args.event) :
        args.linkChange = none := by
      have htype := (EventParser.parse_filed ext hparse).2.1
      have hdeleted : ¬ args.event.eventType = EventType.meetingUrlDeleted.value := by
        rw [htype, hreassigned, EventType.value_inj]
        decide
      have hcreated : ¬ args.event.eventType = EventType.meetingUrlCreated.value := by
        rw [htype, hreassigned, EventType.value_inj]
        decide
      rw [HandleArgs.linkChange, if_neg hdeleted, if_neg hcreated]
    rw [hnone args h.parse, Message.linkChange]
    cases hargs : m.handleArgs ext now with
    | none => rfl
    | some args' => exact hnone args' (handleArgs_event hargs)
  · rw [Message.linkChange, h.handleArgs hreassigned]
    rfl

/-- A processed message changes the links of the user it resolves to, and no others. -/
lemma linksOf_stored (h : db.WellFormed) (hm : m.FiledUnder uid)
    (hstored : saveOutcome ext now m db = .stored) (user : Uuid) :
    (saveEvent ext now m db).2.linksOf uid user =
      ((m.linkChange ext now).filter fun c => c.userId == user).elim (db.linksOf uid user)
        fun c => c.replace (db.linksOf uid user) := by
  obtain ⟨args, writes, hhandled⟩ := handled_of_stored h hm hstored
  obtain ⟨base, hlinks, _, hcell⟩ := hhandled.booking
  rw [linksOf_eq, hcell, linksOf_eq, ← hlinks, linkChange_of_handled hhandled]
  have hwrites := meetingLinks_writes hhandled.collected base
  change ((writes.foldl (fun cell w => cell.write w) base).meetingLinks).filter _ = _
  rw [hwrites]
  cases hc : args.linkChange with
  | none => rfl
  | some c =>
    by_cases huser : c.userId = user
    · rw [Option.filter_some, if_pos (beq_iff_eq.mpr huser), ← huser]
      exact filter_apply_self base.meetingLinks
    · rw [Option.filter_some, if_neg (fun heq => huser (beq_iff_eq.mp heq))]
      exact filter_apply_other huser base.meetingLinks

end Steps

section Runs

variable {ext : Externals} {uid : String} {user : Uuid} {db : Db} {ms : Journal}

/-- After a series of changes the link is what the last of them leaves. -/
lemma foldl_replace (changes : List LinkChange) :
    changes.foldl (fun links c => c.replace links) [] =
      changes.getLast?.elim [] fun c => c.row.toList := by
  induction changes using List.reverseRecOn with
  | nil => rfl
  | append_singleton rest c ih =>
    rw [List.foldl_concat, ih, List.getLast?_concat]
    cases rest.getLast? with
    | none => rfl
    | some last => cases hrow : last.row <;> simp [LinkChange.replace, hrow]

lemma linksOf_saveAll (h : db.WellFormed) (hempty : db.linksOf uid user = [])
    (hms : ∀ entry ∈ ms, entry.2.FiledUnder uid) (hp : Processed ext ms db) :
    (saveAll ext ms db).linksOf uid user =
      (linkChanges ext user ms).getLast?.elim [] fun c => c.row.toList := by
  have hfold := hp.fold (fun db => db.linksOf uid user)
    (fun entry links => ((entry.2.linkChange ext entry.1).filter fun c => c.userId == user).elim
      links fun c => c.replace links) h hms
    fun db h entry hentry hstored => linksOf_stored h hentry hstored user
  rw [hfold, hempty, ← foldl_replace, linkChanges, List.foldl_filterMap]
  congr 1
  funext links entry
  cases (entry.2.linkChange ext entry.1).filter fun c => c.userId == user <;> rfl

lemma linkChange_eventId {m : Message} {now : Timestamp} {c : LinkChange}
    (h : m.linkChange ext now = some c) : c.eventId = m.eventId := by
  obtain ⟨args, hargs, hc⟩ := Option.bind_eq_some_iff.mp h
  rw [(linkChange_spec hc).2.1]
  exact (EventParser.parse_keys ext (handleArgs_event hargs)).1

lemma nodup_linkChanges (h : db.WellFormed) (hp : Processed ext ms db) :
    ((linkChanges ext user ms).map LinkChange.eventId).Nodup := by
  have hids := List.pairwise_map.mp (hp.nodup_eventIds h)
  rw [List.Nodup, linkChanges, List.pairwise_map, List.pairwise_filterMap]
  refine hids.imp fun {entry entry'} hne c hc c' hc' heq => hne ?_
  rw [← linkChange_eventId (Option.filter_eq_some_iff.mp hc).1,
    ← linkChange_eventId (Option.filter_eq_some_iff.mp hc').1, heq]

/-- The link of a user is that of the newest event if and only if the newest event is processed
last, or both it and the last one are deletions. -/
theorem showsNewestLink_iff (hdb : db.Reachable ext) (hempty : db.linksOf uid user = [])
    (hms : ∀ entry ∈ ms, entry.2.FiledUnder uid) (hp : Processed ext ms db) :
    ShowsNewestLink ((saveAll ext ms db).linksOf uid user) (linkChanges ext user ms) ↔
      ∀ last c, (linkChanges ext user ms).getLast? = some last →
        newest LinkChange.occurredAt (linkChanges ext user ms) = some c →
        last = c ∨ last.meetingUrl = none ∧ c.meetingUrl = none := by
  have hids := @nodup_linkChanges ext user db ms hdb.wellFormed hp
  rw [ShowsNewestLink, linksOf_saveAll hdb.wellFormed hempty hms hp]
  generalize linkChanges ext user ms = changes at *
  have hrow (c : LinkChange) : c.row = none ↔ c.meetingUrl = none := Option.map_eq_none_iff
  constructor
  · intro hshows last c hlast hnewest
    have hsame := hshows c hnewest
    rw [hlast] at hsame
    have hrows : last.row = c.row := by
      have hheads := congrArg List.head? hsame
      rwa [Option.elim_some, Option.head?_toList, Option.head?_toList] at hheads
    cases hurl : last.row with
    | none => exact .inr ⟨(hrow last).mp hurl, (hrow c).mp (hrows ▸ hurl)⟩
    | some row =>
      obtain ⟨url, _, rfl⟩ := Option.map_eq_some_iff.mp hurl
      obtain ⟨url', _, heq⟩ := Option.map_eq_some_iff.mp (hrows ▸ hurl)
      have hid : last.eventId = c.eventId := (congrArg MeetingLink.sourceEventId heq).symm
      exact .inl (List.inj_on_of_nodup_map hids (List.mem_of_getLast? hlast)
        (newest_spec hnewest).1 hid)
  · intro hlast c hnewest
    cases hl : changes.getLast? with
    | none =>
      rw [List.getLast?_eq_none_iff.mp hl] at hnewest
      cases hnewest
    | some last =>
      rcases hlast last c hl hnewest with rfl | ⟨hdeleted, hdeleted'⟩
      · rfl
      · rw [Option.elim_some, (hrow last).mpr hdeleted, (hrow c).mpr hdeleted']

end Runs

/-- A meeting-link event of booking `b` for the client. -/
def linkMessage (eventId : String) (eventType : EventType) (time : Timestamp) :
    Timestamp × Message :=
  (0, Message.sample "events.meeting.lifecycle" eventId "b" eventType time
    (.obj [("original", .obj [("meeting_url", .str "https://meet"),
        ("recipient_role", .str "client")]),
      ("normalized", .obj [("participants", .arr [participant .client ""
        (.str "00000000-0000-0000-0000-00000000000b")])])]))

theorem showsNewestLink_deletedThenCreated :
    ShowsNewestLink
      ((saveAll .sample [linkMessage "1" .meetingUrlDeleted 1, linkMessage "2" .meetingUrlCreated 2]
        .empty).linksOf "b" ⟨11⟩)
      (linkChanges .sample ⟨11⟩
        [linkMessage "1" .meetingUrlDeleted 1, linkMessage "2" .meetingUrlCreated 2]) := by
  have hp : Processed .sample
      [linkMessage "1" .meetingUrlDeleted 1, linkMessage "2" .meetingUrlCreated 2] .empty :=
    ⟨rfl, rfl, trivial⟩
  refine (showsNewestLink_iff .empty rfl ?_ hp).mpr ?_
  · simp only [List.forall_mem_cons, List.not_mem_nil, false_imp_iff, implies_true, and_true]
    exact ⟨⟨rfl, by decide, by decide⟩, ⟨rfl, by decide, by decide⟩⟩
  · rintro last c hlast hnewest
    cases hlast
    cases hnewest
    exact .inl rfl

/-- A deletion that is processed before the creation it follows leaves the link. -/
theorem not_showsNewestLink_createdLate :
    (∀ entry ∈ [linkMessage "2" .meetingUrlDeleted 2, linkMessage "1" .meetingUrlCreated 1],
        entry.2.FiledUnder "b") ∧
      Processed .sample
        [linkMessage "2" .meetingUrlDeleted 2, linkMessage "1" .meetingUrlCreated 1] .empty ∧
      Db.empty.linksOf "b" ⟨11⟩ = [] ∧
      DistinctTimes LinkChange.occurredAt (linkChanges .sample ⟨11⟩
        [linkMessage "2" .meetingUrlDeleted 2, linkMessage "1" .meetingUrlCreated 1]) ∧
      ¬ ShowsNewestLink
        ((saveAll .sample [linkMessage "2" .meetingUrlDeleted 2,
          linkMessage "1" .meetingUrlCreated 1] .empty).linksOf "b" ⟨11⟩)
        (linkChanges .sample ⟨11⟩
          [linkMessage "2" .meetingUrlDeleted 2, linkMessage "1" .meetingUrlCreated 1]) := by
  refine ⟨?_, ⟨rfl, rfl, trivial⟩, rfl, ?_, fun hshows => ?_⟩
  · simp only [List.forall_mem_cons, List.not_mem_nil, false_imp_iff, implies_true, and_true]
    exact ⟨⟨rfl, by decide, by decide⟩, ⟨rfl, by decide, by decide⟩⟩
  · unfold DistinctTimes
    decide
  · exact absurd (hshows _ rfl) (by decide)

end EventSaver
