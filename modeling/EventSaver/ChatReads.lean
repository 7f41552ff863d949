import EventSaver.MalformedPayloads
import EventSaver.Processing

/-!
# Read states of chat messages

A read event marks the messages that have arrived before it. A message that arrives later stays
unread until another read event reaches it.
-/

namespace EventSaver
open JsonData TableData EffectProgram

/-- What a read event with a resolved reader says. -/
structure ReadReceipt where
  reader : Uuid
  lastReadMessageId : Option String
  occurredAt : Timestamp
  deriving DecidableEq

/-- A receipt reaches the messages of others that are older, and the one it names. -/
def ReadReceipt.Reaches (receipt : ReadReceipt) (row : ChatEvent) : Prop :=
  row.userId ≠ some receipt.reader ∧
    ((receipt.lastReadMessageId.isSome = true ∧ row.messageId = receipt.lastReadMessageId) ∨
      row.occurredAt < receipt.occurredAt)

instance (receipt : ReadReceipt) (row : ChatEvent) : Decidable (receipt.Reaches row) :=
  inferInstanceAs (Decidable (_ ∧ _))

/-- The booking_chat_events rows of a booking. -/
def Db.chatEventsOf (db : Db) (uid : String) : List ChatEvent :=
  match findBooking uid db.tables.bookings with
  | some b => rowsOf b.id db.tables.chatEvents
  | none => []

def MESSAGE_NEW : String := "message.new"

/-- The messages that are marked as read are those that some receipt reaches. -/
def ReadStateExact (receipts : List ReadReceipt) (rows : List ChatEvent) : Prop :=
  ∀ row ∈ rows, row.chatEventType = MESSAGE_NEW →
    (row.isRead = some true ↔ ∃ receipt ∈ receipts, receipt.Reaches row)

section Readings

variable (ext : Externals)

/-- The row the handler of chat events makes. -/
def HandleArgs.chatRow (args : HandleArgs) : Option ChatEvent :=
  match StatementBuilder.write ⟨ChatEventProjection.canHandle, ChatEventProjection.handle ext⟩
      args with
  | .ok (some (.insertChatEvent _ row)) => some row
  | _ => none

/-- The receipt of a read event whose reader is resolved. -/
def HandleArgs.readReceipt (args : HandleArgs) : Option ReadReceipt :=
  if ChatReadUpdateProjection.canHandle args.event then
    match args.firstParticipantUserId with
    | .ok (some reader) =>
      some {
        reader := reader
        lastReadMessageId :=
          (((Payload.originalOf args.event.payload).get? "last_read_message_id").getD .null).str?
        occurredAt := args.event.occurredAt }
    | _ => none
  else none

def Message.chatRow (now : Timestamp) (m : Message) : Option ChatEvent :=
  (m.handleArgs ext now).bind (HandleArgs.chatRow ext)

def Message.readReceipt (now : Timestamp) (m : Message) : Option ReadReceipt :=
  (m.handleArgs ext now).bind HandleArgs.readReceipt

/-- The receipts among messages. -/
def readReceipts (ms : Journal) : List ReadReceipt :=
  ms.filterMap fun entry => entry.2.readReceipt ext entry.1

/-- A message that some receipt reaches is not processed after all receipts that reach it. -/
def ReadsFollow (ms : Journal) : Prop :=
  ∀ later ∈ ms.tails, ∀ entry ∈ later.head?, ∀ row ∈ entry.2.chatRow ext entry.1,
    row.chatEventType = MESSAGE_NEW → (∃ receipt ∈ readReceipts ext ms, receipt.Reaches row) →
      ∃ receipt ∈ readReceipts ext later, receipt.Reaches row

end Readings

section Marks

/-- A row after receipts have been processed. -/
def ChatEvent.markedBy (receipts : List ReadReceipt) (row : ChatEvent) : ChatEvent :=
  if row.chatEventType = MESSAGE_NEW ∧ ∃ receipt ∈ receipts, receipt.Reaches row then
    { row with isRead := some true }
  else row

variable {row : ChatEvent} {receipts receipts' : List ReadReceipt}

lemma readBy_iff (receipt : ReadReceipt) :
    row.readBy receipt.reader receipt.lastReadMessageId receipt.occurredAt = true ↔
      row.chatEventType = MESSAGE_NEW ∧ receipt.Reaches row := by
  simp only [ChatEvent.readBy, MESSAGE_NEW, ReadReceipt.Reaches, Bool.and_eq_true,
    Bool.or_eq_true, beq_iff_eq, bne_iff_ne, decide_eq_true_eq, and_assoc]

lemma markedBy_type : (row.markedBy receipts).chatEventType = row.chatEventType := by
  unfold ChatEvent.markedBy
  split <;> rfl

lemma markedBy_reaches {receipt : ReadReceipt} :
    receipt.Reaches (row.markedBy receipts) ↔ receipt.Reaches row := by
  unfold ChatEvent.markedBy
  split <;> rfl

lemma markedBy_nil : row.markedBy [] = row := by
  simp [ChatEvent.markedBy]

/-- Receipts that are processed one after the other mark what they reach together. -/
lemma markedBy_append :
    (row.markedBy receipts).markedBy receipts' = row.markedBy (receipts ++ receipts') := by
  have hmarked (rs : List ReadReceipt) : (row.markedBy rs).markedBy receipts' =
      if row.chatEventType = MESSAGE_NEW ∧ ∃ receipt ∈ receipts', receipt.Reaches row then
        { row with isRead := some true }
      else row.markedBy rs := by
    have hunfold : (row.markedBy rs).markedBy receipts' = if
        (row.markedBy rs).chatEventType = MESSAGE_NEW ∧
          ∃ receipt ∈ receipts', receipt.Reaches (row.markedBy rs) then
        { row.markedBy rs with isRead := some true } else row.markedBy rs := rfl
    rw [hunfold]
    simp only [markedBy_type, markedBy_reaches]
    congr 1
    unfold ChatEvent.markedBy
    split <;> rfl
  rw [hmarked]
  split
  next hreached =>
    obtain ⟨htype, receipt, hmem, hreaches⟩ := hreached
    rw [ChatEvent.markedBy, if_pos ⟨htype, receipt, List.mem_append_right _ hmem, hreaches⟩]
  next hnot =>
    unfold ChatEvent.markedBy
    refine if_congr (and_congr_right fun htype => ?_) rfl rfl
    simp only [List.mem_append, or_and_right, exists_or]
    exact (or_iff_left fun hreached => hnot ⟨htype, hreached⟩).symm

/-- The update for a receipt marks what it reaches. -/
lemma updateWhere_readBy (receipt : ReadReceipt) (rows : List ChatEvent) :
    updateWhere
        (fun c => c.readBy receipt.reader receipt.lastReadMessageId receipt.occurredAt)
        (fun c => { c with isRead := some true }) rows =
      rows.map (ChatEvent.markedBy [receipt]) := by
  refine List.map_congr_left fun c _ => ?_
  simp only [readBy_iff, ChatEvent.markedBy, List.mem_singleton, exists_eq_left]

end Marks

section Writes

variable {ext : Externals} {args : HandleArgs} {writes : List ProjectionWrite}

/-- The writes about chat rows. -/
def ofChat : ProjectionWrite.Kind → Bool
  | .chatEvent => true
  | .chatRead => true
  | _ => false

/-- The write for the chat row of an event. -/
lemma write_chatRow {write : Option ProjectionWrite}
    (h : StatementBuilder.write
      ⟨ChatEventProjection.canHandle, ChatEventProjection.handle ext⟩ args = .ok write) :
    write = (args.chatRow ext).map (.insertChatEvent args.bookingRefId) := by
  rw [HandleArgs.chatRow, h]
  cases write with
  | none => rfl
  | some w =>
    obtain ⟨_, stmt, hstmt, hbind⟩ := StatementBuilder.write_eq_some.mp h
    simp only [ChatEventProjection.handle, bind_eq_ok] at hstmt
    obtain ⟨_, _, _, _, _, _, _, _, hstmt⟩ := hstmt
    cases hstmt
    obtain ⟨_, _, hbind⟩ := bind_eq_ok.mp hbind
    cases hbind
    rfl

/-- The write for the receipt of an event. -/
lemma write_readReceipt {write : Option ProjectionWrite}
    (h : StatementBuilder.write
      ⟨ChatReadUpdateProjection.canHandle, ChatReadUpdateProjection.handle⟩ args = .ok write) :
    write = args.readReceipt.map fun receipt =>
      .updateChatRead args.bookingRefId receipt.reader receipt.lastReadMessageId
        receipt.occurredAt := by
  unfold HandleArgs.readReceipt
  split
  next hcan =>
    rw [StatementBuilder.write_of hcan] at h
    obtain ⟨stmt, hstmt, h⟩ := bind_eq_ok.mp h
    obtain ⟨reader, hreader, hstmt⟩ := bind_eq_ok.mp hstmt
    rw [hreader]
    cases reader with
    | none =>
      cases hstmt
      cases h
      rfl
    | some reader =>
      simp only [bind_eq_ok] at hstmt
      obtain ⟨original, horiginal, last, hlast, hstmt⟩ := hstmt
      cases hstmt
      have hfound : ((Payload.originalOf args.event.payload).get? "last_read_message_id").getD .null =
          last := by
        rw [(Payload.get_eq_ok.mp hlast).2, (Payload.original_eq_ok.mp horiginal).2]
        rfl
      obtain ⟨w, hbind, hw⟩ := except_map_eq_ok.mp h
      obtain ⟨lastReadMessageId, hparam, hbind⟩ := bind_eq_ok.mp hbind
      cases hbind
      have hlastId : last.str? = lastReadMessageId := by
        cases last <;> first | exact Except.ok.inj hparam | cases hparam
      rw [← hw, ← hlastId, ← hfound]
      rfl
  next hcan =>
    rw [StatementBuilder.write_of_not hcan] at h
    cases h
    rfl

/-- Of the writes for an event, those of two handlers are about chat rows. -/
lemma chatWrites_eq (h : projectionWrites ext args = .ok writes) :
    writes.filter (fun w => ofChat w.kind) =
      ((args.chatRow ext).map (.insertChatEvent args.bookingRefId)).toList ++
        (args.readReceipt.map fun receipt => .updateChatRead args.bookingRefId receipt.reader
          receipt.lastReadMessageId receipt.occurredAt).toList := by
  obtain ⟨ws, hws, hfilter⟩ := projectionWrites_filter h ofChat
  cases hws with
  | @cons _ chat _ ws hchat hws =>
    cases hws with
    | @cons _ read _ ws hread hws =>
      cases hws
      rw [hfilter, write_chatRow hchat, write_readReceipt hread]
      simp only [List.flatMap_cons, List.flatMap_nil, List.append_nil]

/-- The effect of a write on the chat rows of its booking. -/
def chatWrite (w : ProjectionWrite) (rows : List ChatEvent) : List ChatEvent :=
  match w with
  | .insertChatEvent _ row => insertUnless (fun c => c.rawEventId == row.rawEventId) row rows
  | .updateChatRead _ reader messageId time =>
    updateWhere (fun c => c.readBy reader messageId time) (fun c => { c with isRead := some true })
      rows
  | _ => rows

lemma chatEvents_write (w : ProjectionWrite) (cell : BookingCell) :
    (cell.write w).chatEvents = chatWrite w cell.chatEvents := by
  cases w <;> rfl

/-- A chat row carries the id of its event. -/
lemma chatRow_rawEventId {row : ChatEvent} (h : args.chatRow ext = some row) :
    row.rawEventId = args.event.eventId := by
  unfold HandleArgs.chatRow at h
  split at h
  next ref row' hwrite =>
    cases h
    exact (chatEvent_write hwrite).1.2
  next => cases h

/-- The chat rows after the writes for an event whose own row is new. -/
lemma chatEvents_writes (h : projectionWrites ext args = .ok writes) (base : BookingCell)
    (hnew : ∀ row ∈ base.chatEvents, row.rawEventId ≠ args.event.eventId) :
    (writes.foldl (fun cell w => cell.write w) base).chatEvents =
      (base.chatEvents ++ (args.chatRow ext).toList).map
        (ChatEvent.markedBy args.readReceipt.toList) := by
  have hfold (ws : List ProjectionWrite) (base : BookingCell) :
      (ws.foldl (fun cell w => cell.write w) base).chatEvents =
        ws.foldl (fun rows w => chatWrite w rows) base.chatEvents := by
    induction ws generalizing base with
    | nil => rfl
    | cons w rest ih => rw [List.foldl_cons, ih, chatEvents_write, List.foldl_cons]
  have hothers (rows : List ChatEvent) (w : ProjectionWrite) (hw : ofChat w.kind = false) :
      chatWrite w rows = rows := by
    cases w <;> first | rfl | cases hw
  rw [hfold, foldl_filter_kind hothers, chatWrites_eq h, List.foldl_append]
  have hinsert : ((args.chatRow ext).map (.insertChatEvent args.bookingRefId)).toList.foldl
      (fun rows w => chatWrite w rows) base.chatEvents =
      base.chatEvents ++ (args.chatRow ext).toList := by
    cases hrow : args.chatRow ext with
    | none => exact (List.append_nil _).symm
    | some row =>
      refine insertUnless_of_new fun c hc => beq_eq_false_iff_ne.mpr ?_
      rw [chatRow_rawEventId hrow]
      exact hnew c hc
  rw [hinsert]
  cases args.readReceipt with
  | none =>
    have hid : ChatEvent.markedBy [] = id := funext fun _ => markedBy_nil
    exact (hid ▸ List.map_id _).symm
  | some receipt => exact updateWhere_readBy receipt _

end Writes

section Steps

variable {ext : Externals} {now : Timestamp} {m : Message} {uid : String} {db : Db}

lemma chatEventsOf_eq (db : Db) (uid : String) :
    db.chatEventsOf uid = (db.cellOf uid).elim [] (·.chatEvents) := by
  have hcell : db.cellOf uid = (findBooking uid db.tables.bookings).map (cellOf db.tables) := rfl
  rw [Db.chatEventsOf, hcell]
  cases findBooking uid db.tables.bookings <;> rfl

/-- A processed message adds its chat row, and its receipt marks what has arrived. -/
lemma chatEventsOf_stored (h : db.WellFormed) (hm : m.FiledUnder uid)
    (hne : m.eventType ≠ EventType.bookingClientReassigned.value)
    (hstored : saveOutcome ext now m db = .stored) :
    (saveEvent ext now m db).2.chatEventsOf uid =
      (db.chatEventsOf uid ++ (m.chatRow ext now).toList).map
        (ChatEvent.markedBy (m.readReceipt ext now).toList) := by
  obtain ⟨args, writes, hhandled⟩ := handled_of_stored h hm hstored
  obtain ⟨base, _, hchats, hcell⟩ := hhandled.booking
  have hargs := hhandled.handleArgs hne
  rw [chatEventsOf_eq, hcell, chatEventsOf_eq, ← hchats, Message.chatRow, Message.readReceipt,
    hargs]
  refine chatEvents_writes hhandled.collected base fun row hrow heq => ?_
  refine fresh_of_stored h hstored ?_
  rw [hchats, ← chatEventsOf_eq, Db.chatEventsOf] at hrow
  split at hrow
  next b hb =>
    rw [← hhandled.event.1, ← heq]
    exact h.chatSources ⟨b.id, row⟩ (mem_rowsOf.mp hrow)
  next => cases hrow

end Steps

section Runs

variable {ext : Externals} {uid : String} {db : Db} {ms : Journal}

/-- The chat rows of messages after they have been processed. -/
def arrivedRows (ext : Externals) : Journal → List ChatEvent
  | [] => []
  | entry :: rest =>
    (entry.2.chatRow ext entry.1).toList.map
        (ChatEvent.markedBy (readReceipts ext (entry :: rest))) ++
      arrivedRows ext rest

variable (ext) in
/-- What a series of messages does to chat rows: the old rows are marked by all receipts, a new
row by those that come with it or after it. -/
lemma foldl_chatRows (ms : Journal) (rows : List ChatEvent) :
    ms.foldl (fun rows entry => (rows ++ (entry.2.chatRow ext entry.1).toList).map
        (ChatEvent.markedBy (entry.2.readReceipt ext entry.1).toList)) rows =
      rows.map (ChatEvent.markedBy (readReceipts ext ms)) ++ arrivedRows ext ms := by
  induction ms generalizing rows with
  | nil =>
    have hid : ChatEvent.markedBy [] = id := funext fun _ => markedBy_nil
    exact ((List.append_nil _).trans (hid ▸ List.map_id rows)).symm
  | cons entry rest ih =>
    have hreceipts : readReceipts ext (entry :: rest) =
        (entry.2.readReceipt ext entry.1).toList ++ readReceipts ext rest := by
      rw [readReceipts, List.filterMap_cons]
      cases entry.2.readReceipt ext entry.1 <;> rfl
    have hmarks : ChatEvent.markedBy (readReceipts ext rest) ∘
        ChatEvent.markedBy (entry.2.readReceipt ext entry.1).toList =
        ChatEvent.markedBy (readReceipts ext (entry :: rest)) := by
      funext row
      rw [hreceipts]
      exact markedBy_append
    rw [List.foldl_cons, ih, List.map_map, hmarks, List.map_append, arrivedRows,
      List.append_assoc]

lemma mem_arrivedRows {row : ChatEvent} : row ∈ arrivedRows ext ms ↔
    ∃ later ∈ ms.tails, ∃ entry ∈ later.head?, ∃ new ∈ entry.2.chatRow ext entry.1,
      row = new.markedBy (readReceipts ext later) := by
  induction ms with
  | nil => simp [arrivedRows]
  | cons entry rest ih =>
    rw [arrivedRows, List.mem_append, List.mem_map, ih, List.tails_cons, List.exists_mem_cons_iff]
    refine or_congr_left ?_
    simp only [List.head?_cons, Option.mem_def, Option.some.injEq, exists_eq_left',
      Option.mem_toList]
    exact exists_congr fun new => and_congr_right fun _ => eq_comm

/-- A chat row is unread when it arrives. -/
lemma isRead_chatRow {m : Message} {now : Timestamp} {row : ChatEvent}
    (h : m.chatRow ext now = some row) : row.isRead = none := by
  obtain ⟨args, _, hrow⟩ := Option.bind_eq_some_iff.mp h
  unfold HandleArgs.chatRow at hrow
  split at hrow
  next ref row' hwrite =>
    cases hrow
    obtain ⟨_, stmt, hstmt, hbind⟩ := StatementBuilder.write_eq_some.mp hwrite
    simp only [ChatEventProjection.handle, bind_eq_ok] at hstmt
    obtain ⟨_, _, _, _, _, _, _, _, hstmt⟩ := hstmt
    cases hstmt
    obtain ⟨_, _, hbind⟩ := bind_eq_ok.mp hbind
    cases hbind
    rfl
  next => cases hrow

lemma isRead_markedBy {row : ChatEvent} (hunread : row.isRead = none)
    (htype : row.chatEventType = MESSAGE_NEW) (receipts : List ReadReceipt) :
    (row.markedBy receipts).isRead = some true ↔ ∃ receipt ∈ receipts, receipt.Reaches row := by
  unfold ChatEvent.markedBy
  split
  next h => exact ⟨fun _ => h.2, fun _ => rfl⟩
  next h =>
    rw [hunread]
    exact ⟨fun hread => (by cases hread), fun hreached => absurd ⟨htype, hreached⟩ h⟩

/-- The read states are exact if and only if every message that some read event reaches is reached
by one that is processed no earlier than the message. -/
theorem readStateExact_iff (hdb : db.Reachable ext) (hempty : db.chatEventsOf uid = [])
    (hms : ∀ entry ∈ ms, entry.2.FiledUnder uid ∧
      entry.2.eventType ≠ EventType.bookingClientReassigned.value)
    (hp : Processed ext ms db) :
    ReadStateExact (readReceipts ext ms) ((saveAll ext ms db).chatEventsOf uid) ↔
      ReadsFollow ext ms := by
  have hfold := hp.fold (fun db => db.chatEventsOf uid)
    (fun entry rows => (rows ++ (entry.2.chatRow ext entry.1).toList).map
      (ChatEvent.markedBy (entry.2.readReceipt ext entry.1).toList)) hdb.wellFormed hms
    fun db h entry hentry hstored => chatEventsOf_stored h hentry.1 hentry.2 hstored
  rw [hempty, foldl_chatRows ext ms [], List.map_nil, List.nil_append] at hfold
  have hsub : ∀ later ∈ ms.tails, readReceipts ext later ⊆ readReceipts ext ms :=
    fun later hlater => (((List.mem_tails _ _).mp hlater).filterMap _).subset
  rw [hfold, ReadStateExact, ReadsFollow]
  constructor
  · intro hexact later hlater entry hentry row hrow htype hreached
    have hmem := mem_arrivedRows.mpr ⟨later, hlater, entry, hentry, row, hrow, rfl⟩
    have hread := (hexact _ hmem (markedBy_type.trans htype)).mpr
      (by simpa only [markedBy_reaches] using hreached)
    exact (isRead_markedBy (isRead_chatRow hrow) htype _).mp hread
  · intro hfollow row hmem htype
    obtain ⟨later, hlater, entry, hentry, new, hnew, rfl⟩ := mem_arrivedRows.mp hmem
    rw [markedBy_type] at htype
    simp only [markedBy_reaches, isRead_markedBy (isRead_chatRow hnew) htype]
    refine ⟨fun ⟨receipt, hreceipt, hreaches⟩ => ⟨receipt, hsub later hlater hreceipt, hreaches⟩, ?_⟩
    exact hfollow later hlater entry hentry new hnew htype

end Runs

/-- A message of the organizer in the chat of booking `b`. -/
def newMessage : Timestamp × Message :=
  (0, { Message.sample "events.chat" "1" "b" .getstreamMessageRead 1
      (.obj [("original", .obj [("type", .str MESSAGE_NEW), ("message", .obj [("id", .str "m")])]),
        ("normalized", .obj [("participants", .arr [participant .organizer ""
          (.str "00000000-0000-0000-0000-00000000000a")])])]) with
    eventType := "getstream.message.new"
    source := SourceType.getstream.value })

/-- The client has read that message. -/
def readMessage : Timestamp × Message :=
  (0, { Message.sample "events.chat" "2" "b" .getstreamMessageRead 2
      (.obj [("original", .obj [("type", .str "message.read"), ("last_read_message_id", .str "m")]),
        ("normalized", .obj [("participants", .arr [participant .client ""
          (.str "00000000-0000-0000-0000-00000000000b")])])]) with
    source := SourceType.getstream.value })

theorem readStateExact_newThenRead :
    ReadStateExact (readReceipts .sample [newMessage, readMessage])
      ((saveAll .sample [newMessage, readMessage] .empty).chatEventsOf "b") := by
  have hp : Processed .sample [newMessage, readMessage] .empty := ⟨rfl, rfl, trivial⟩
  refine (readStateExact_iff .empty rfl ?_ hp).mpr ?_
  · simp only [List.forall_mem_cons, List.not_mem_nil, false_imp_iff, implies_true, and_true]
    exact ⟨⟨⟨rfl, by decide, by decide⟩, by decide⟩, ⟨⟨rfl, by decide, by decide⟩, by decide⟩⟩
  · unfold ReadsFollow
    decide

/-- A message that arrives after it has been read stays unread. -/
theorem not_readStateExact_readThenNew :
    (∀ entry ∈ [readMessage, newMessage], entry.2.FiledUnder "b" ∧
        entry.2.source = SourceType.getstream.value) ∧
      Processed .sample [readMessage, newMessage] .empty ∧
      Db.empty.chatEventsOf "b" = [] ∧
      ¬ ReadStateExact (readReceipts .sample [readMessage, newMessage])
        ((saveAll .sample [readMessage, newMessage] .empty).chatEventsOf "b") := by
  refine ⟨?_, ⟨rfl, rfl, trivial⟩, rfl, fun hexact => ?_⟩
  · simp only [List.forall_mem_cons, List.not_mem_nil, false_imp_iff, implies_true, and_true]
    exact ⟨⟨⟨rfl, by decide, by decide⟩, rfl⟩, ⟨⟨rfl, by decide, by decide⟩, rfl⟩⟩
  · unfold ReadStateExact at hexact
    exact absurd hexact (by decide)

end EventSaver
